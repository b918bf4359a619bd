import NeutronTge.Auction.Deposits

/-!
# NeutronTge.Auction.Books

The totals of the auction beside its users and its coins. `Books` says that the totals are the
sums over the users, `Backed` that the coins cover the deposits until the pools are made, and
`NtrnKept` that the NTRN which `SetPoolSize` divided stays.
-/

namespace NeutronTge.Auction

open CosmWasm Astroport
open Lockdrop (PoolType)

variable {E : Type} {x : Externals E} {w w' : World E}

/-! ### Sums over the users -/

/-- A field of the users, summed over all of them. -/
def Storage.sumOf (s : Storage) (f : UserInfo → Nat) : Nat := s.users.sum fun _ user => f user

section Sums

variable {s s' : Storage} {f : UserInfo → Nat}

/-- A summand, read off the record of the user. -/
theorem elim_user (hf : f .default = 0) (u : Addr) :
    (s.users.mayLoad u).elim 0 f = f (s.user u) := by
  unfold Storage.user
  cases s.users.mayLoad u with
  | none => exact hf.symm
  | some user => rfl

theorem sumOf_congr (hf : f .default = 0) (h : ∀ u, f (s'.user u) = f (s.user u)) :
    s'.sumOf f = s.sumOf f := by
  refine Map.sum_eq_of_mayLoad fun u => ?_
  show (s'.users.mayLoad u).elim 0 f = (s.users.mayLoad u).elim 0 f
  rw [elim_user hf, elim_user hf, h]

/-- A user that is stored moves the sum by the difference, stated without one. -/
theorem sumOf_save (hf : f .default = 0) {addr : Addr} {user : UserInfo}
    (h : s'.users = s.users.save addr user) :
    s'.sumOf f + f (s.user addr) = s.sumOf f + f user := by
  have hmove := Map.sum_move (m := s.users) (n := s'.users) (f := fun _ user => f user) addr
    fun u hu => by
      show (s'.users.mayLoad u).elim 0 f = (s.users.mayLoad u).elim 0 f
      rw [elim_user hf, elim_user hf, user_save h, if_neg hu]
  have hold : (s.users.mayLoad addr).elim 0 f = f (s.user addr) := elim_user hf addr
  have hnew : (s'.users.mayLoad addr).elim 0 f = f user := by
    rw [elim_user hf, user_save h, if_pos rfl]
  rwa [hold, hnew] at hmove

/-- A stored field is part of its sum. -/
theorem le_sumOf (hf : f .default = 0) (u : Addr) : f (s.user u) ≤ s.sumOf f := by
  rw [← elim_user hf]
  cases hu : s.users.mayLoad u with
  | none => exact Nat.zero_le _
  | some user => exact Map.le_sum hu fun _ user => f user

end Sums

/-- The totals are the sums over the users. -/
structure Books (s : Storage) : Prop where
  deposited : ∀ p, s.state.totalDeposited p = s.sumOf (UserInfo.deposited p)
  locked : ∀ p, s.state.lpLocked p = s.sumOf (UserInfo.lpLocked p)

section Fields

variable (p : PoolType)

@[simp] theorem deposited_default : UserInfo.default.deposited p = 0 := by
  cases p <;> rfl

@[simp] theorem lpLocked_default : UserInfo.default.lpLocked p = 0 := by
  cases p <;> rfl

@[simp] theorem deposited_withLpLocked (p' : PoolType) (user : UserInfo) (n : Nat) :
    (user.withLpLocked p' n).deposited p = user.deposited p := by
  cases p <;> cases p' <;> rfl

@[simp] theorem totalDeposited_withLpLocked (p' : PoolType) (state : State) (n : Nat) :
    (state.withLpLocked p' n).totalDeposited p = state.totalDeposited p := by
  cases p <;> cases p' <;> rfl

/-- The locked amount of one asset is written, and the other stays. -/
theorem lpLocked_withLpLocked (p' : PoolType) (user : UserInfo) (n : Nat) :
    (user.withLpLocked p' n).lpLocked p = if p = p' then n else user.lpLocked p := by
  cases p <;> cases p' <;> rfl

theorem state_lpLocked_withLpLocked (p' : PoolType) (state : State) (n : Nat) :
    (state.withLpLocked p' n).lpLocked p = if p = p' then n else state.lpLocked p := by
  cases p <;> cases p' <;> rfl

end Fields

/-- What a deposit or a withdrawal of one user does to the books. -/
theorem Books.of_save {s s' : Storage} (h : Books s) {addr : Addr} {user : UserInfo}
    (husers : s'.users = s.users.save addr user)
    (hdeposited : ∀ p, s'.state.totalDeposited p + (s.user addr).deposited p =
      s.state.totalDeposited p + user.deposited p)
    (hlocked : ∀ p, s'.state.lpLocked p + (s.user addr).lpLocked p =
      s.state.lpLocked p + user.lpLocked p) : Books s' := by
  constructor
  · intro p
    have hsum := sumOf_save (deposited_default p) husers
    have hbefore := h.deposited p
    have hmove := hdeposited p
    omega
  · intro p
    have hsum := sumOf_save (lpLocked_default p) husers
    have hbefore := h.locked p
    have hmove := hlocked p
    omega

/-- The users' deposits and locked tokens are the same, and so are the totals. -/
theorem Books.of_same {s s' : Storage} (h : Books s)
    (hdeposited : ∀ p, s'.state.totalDeposited p = s.state.totalDeposited p)
    (hlocked : ∀ p, s'.state.lpLocked p = s.state.lpLocked p)
    (huser : ∀ p u, (s'.user u).deposited p = (s.user u).deposited p ∧
      (s'.user u).lpLocked p = (s.user u).lpLocked p) : Books s' := by
  constructor
  · intro p
    rw [hdeposited, h.deposited, sumOf_congr (deposited_default p) fun u => (huser p u).1]
  · intro p
    rw [hlocked, h.locked, sumOf_congr (lpLocked_default p) fun u => (huser p u).2]

theorem Books.deposits {s s' : Storage} {env : Env} {info : MessageInfo}
    {usdcDenom atomDenom : String} {usdcAmount atomAmount : Nat} (h : Books s)
    (hdeposits : Deposits s s' env info usdcDenom atomDenom usdcAmount atomAmount) : Books s' := by
  have hstorage := hdeposits.storage
  subst hstorage
  refine h.of_save rfl (fun p => ?_) fun p => ?_
  · cases p <;> simp only [State.totalDeposited, UserInfo.deposited] <;> omega
  · cases p <;> simp only [State.lpLocked, UserInfo.lpLocked]

theorem Books.withdraws {s s' : Storage} {env : Env} {info : MessageInfo} {msgs : List CosmosMsg}
    {usdcDenom atomDenom : String} {amountUsdc amountAtom : Nat} {user : UserInfo}
    {percent : Decimal} (h : Books s)
    (hwithdraws : Withdraws s s' env info msgs usdcDenom atomDenom amountUsdc amountAtom user
      percent) : Books s' := by
  have husdc := hwithdraws.totalUsdc_le
  have hatom := hwithdraws.totalAtom_le
  have husdcUser := hwithdraws.userUsdc_le
  have hatomUser := hwithdraws.userAtom_le
  have huser := user_eq_of_load hwithdraws.user_eq
  have hstorage := hwithdraws.storage
  subst hstorage
  refine h.of_save rfl (fun p => ?_) fun p => ?_
  · rw [huser]
    cases p <;> simp only [State.totalDeposited, UserInfo.deposited] <;> omega
  · rw [huser]
    cases p <;> simp only [State.lpLocked, UserInfo.lpLocked]

/-- Locking moves a user's locked amount and the total by the same. -/
theorem Books.withLpLocked {s s' : Storage} (h : Books s) {addr : Addr} {user : UserInfo}
    {asset : PoolType} {total locked : Nat} (huser : s.users.mayLoad addr = some user)
    (hstorage : s' = { s with
      state := s.state.withLpLocked asset total
      users := s.users.save addr (user.withLpLocked asset locked) })
    (hmove : total + user.lpLocked asset = s.state.lpLocked asset + locked) : Books s' := by
  subst hstorage
  refine h.of_save rfl (fun p => ?_) fun p => ?_
  · rw [user_eq_of_load huser, totalDeposited_withLpLocked, deposited_withLpLocked]
  · show (s.state.withLpLocked asset total).lpLocked p + _ = _
    rw [user_eq_of_load huser, lpLocked_withLpLocked, state_lpLocked_withLpLocked]
    split_ifs with hp
    · rw [hp, hmove]
    · rfl

theorem Vests.sameLocked {s s' : Storage} {env : Env} {msgs : List CosmosMsg}
    {entries : List (Addr × UserInfo)} {poolInfo : PoolInfo}
    (h : Vests s s' env msgs entries poolInfo) (p : PoolType) (u : Addr) :
    (s'.user u).lpLocked p = (s.user u).lpLocked p := by
  unfold Storage.user
  rcases h.mayLoad u with ⟨-, user, hstored, -, -, hmarked⟩ | ⟨-, hsame⟩
  · rw [hmarked, hstored]
    cases p <;> rfl
  · rw [hsame]

theorem SameDeposits.deposited {s s' : Storage} (h : SameDeposits s s') (p : PoolType) (u : Addr) :
    (s'.user u).deposited p = (s.user u).deposited p := by
  cases p with
  | usdc => exact h.usdc u
  | atom => exact h.atom u

/-- The books agree after every transaction if they did before. -/
theorem Books.execute {info : MessageInfo} {msg : ExecuteMsg} (h : Books w.storage)
    (hexec : w.execute x info msg = .ok w') : Books w'.storage := by
  rcases execute_cases hexec with ⟨msgs, hresponds, hmsg⟩ | ⟨-, w₁, usdcDenom, atomDenom, poolInfo,
    prev, cur, lockdrop, provide₁, provide₂, msgs, hinit⟩
  · have heffect := hresponds.effect
    cases heffect with
    | configure _ _ _ hconf =>
        refine h.of_same (fun p => by rw [hconf.state]) (fun p => by rw [hconf.state]) fun p u => ?_
        simp [Storage.user, hconf.users]
    | deposit _ _ _ _ _ hdeposits => exact h.deposits hdeposits
    | withdraw _ _ _ _ _ _ hwithdraws => exact h.withdraws hwithdraws
    | size _ _ _ _ _ _ _ _ _ hsizes =>
        rw [hsizes.storage]
        exact h.of_same (fun p => by cases p <;> rfl) (fun p => by cases p <;> rfl)
          fun _ _ => ⟨rfl, rfl⟩
    | initPool => exact absurd rfl hmsg
    | lock _ _ _ _ _ hlocks =>
        exact h.withLpLocked hlocks.user_eq hlocks.storage (by omega)
    | unlock _ _ _ _ _ hunlocks =>
        have huser := hunlocks.user_le
        have htotal := hunlocks.total_le
        exact h.withLpLocked hunlocks.user_eq hunlocks.storage (by omega)
    | vest _ _ hvests =>
        have hstate : w'.storage.state = w.storage.state := by rw [hvests.storage]
        exact h.of_same (fun p => by rw [hstate]) (fun p => by rw [hstate])
          fun p u => ⟨hvests.sameDeposits.deposited p u, hvests.sameLocked p u⟩
  · rw [hinit.finalizes.storage]
    exact h.of_same (fun p => by cases p <;> rfl) (fun p => by cases p <;> rfl)
      fun _ _ => ⟨rfl, rfl⟩

/-! ### The coins -/

/-- What the auction owes its users in a denom. -/
def Storage.owed (s : Storage) (denom : String) : Nat :=
  (if s.config.usdcDenom = some denom then s.state.totalUsdcDeposited else 0) +
    if s.config.atomDenom = some denom then s.state.totalAtomDeposited else 0

/-- The pools are not made yet. -/
def Storage.Unminted (s : Storage) : Prop := s.state.lpUsdcSharesMinted = none

/-- Neither of the two assets is NTRN. -/
def Config.NtrnApart (config : Config) : Prop :=
  config.usdcDenom ≠ some config.ntrnDenom ∧ config.atomDenom ≠ some config.ntrnDenom

/-- The coins cover the deposits and the NTRN of the pools, and nothing is deposited while a
denom is missing. -/
structure Backed (w : World E) : Prop where
  covered : ∀ denom, w.storage.owed denom ≤ w.bank denom
  unset : w.storage.config.usdcDenom = none ∨ w.storage.config.atomDenom = none →
    w.storage.state.totalUsdcDeposited = 0 ∧ w.storage.state.totalAtomDeposited = 0
  ntrn : w.storage.config.NtrnApart →
    w.storage.state.usdcNtrnSize + w.storage.state.atomNtrnSize ≤
      w.bank w.storage.config.ntrnDenom

/-- A denom that is set is not set to another one. -/
def SetsOnce (w : World E) : Action E → Prop
  | .execute _ (.setTokenInfo usdcDenom atomDenom _) =>
      (∀ denom, usdcDenom = some denom →
        w.storage.config.usdcDenom = none ∨ w.storage.config.usdcDenom = some denom) ∧
      ∀ denom, atomDenom = some denom →
        w.storage.config.atomDenom = none ∨ w.storage.config.atomDenom = some denom
  | _ => True

/-- The coins of a deposit cover what it is counted as. -/
theorem depositAmounts_le {usdcDenom atomDenom denom : String} {funds : List Coin}
    {usdcAmount atomAmount : Nat}
    (h : depositAmounts usdcDenom atomDenom funds = .ok (usdcAmount, atomAmount)) :
    (if usdcDenom = denom then usdcAmount else 0) + (if atomDenom = denom then atomAmount else 0) ≤
      Bank.amountOf denom funds := by
  -- for any amounts that the loop starts with
  suffices hloop : (if usdcDenom = denom then usdcAmount else 0) +
      (if atomDenom = denom then atomAmount else 0) ≤
        (if usdcDenom = denom then ((0, 0) : Nat × Nat).1 else 0) +
          (if atomDenom = denom then ((0, 0) : Nat × Nat).2 else 0) + Bank.amountOf denom funds by
    simpa using hloop
  unfold depositAmounts at h
  generalize ((0, 0) : Nat × Nat) = start at h ⊢
  induction funds generalizing start with
  | nil =>
      obtain rfl := Except.ok.inj h
      exact Nat.le_add_right _ _
  | cons fund funds ih =>
      obtain ⟨usdc₀, atom₀⟩ := start
      obtain ⟨mid, hmid, hrest⟩ := foldlM_cons_ok.mp h
      have hle := ih mid hrest
      simp only at hmid
      rw [Bank.amountOf_cons]
      by_cases husdc : fund.denom = usdcDenom
      · rw [if_pos husdc] at hmid
        obtain rfl := Except.ok.inj hmid
        rw [husdc]
        split_ifs at hle ⊢ <;> omega
      · rw [if_neg husdc] at hmid
        by_cases hatom : fund.denom = atomDenom
        · rw [if_pos hatom] at hmid
          obtain rfl := Except.ok.inj hmid
          rw [hatom]
          split_ifs at hle ⊢ <;> omega
        · rw [if_neg hatom] at hmid
          cases hmid

theorem amountOf_withdrawMsg {user : Addr} {denom denom' : String} {amount : Nat} :
    Bank.amountOf denom' ((withdrawMsg user denom amount).flatMap CosmosMsg.coins) =
      if denom = denom' then amount else 0 := by
  unfold withdrawMsg
  split_ifs with hpos hdenom hdenom <;> simp [CosmosMsg.coins, hdenom]
  omega

theorem le_receive (bank : Bank) (coins : List Coin) (denom : String) :
    bank denom ≤ bank.receive coins denom := by
  rw [Bank.receive_apply]
  exact Nat.le_add_right _ _

/-- A denom that is set stays. -/
theorem denom_of_setsOnce {old new : Option String}
    (h : ∀ denom, new = some denom → old = none ∨ old = some denom) {denom : String}
    (hold : old = some denom) : (new <|> old) = some denom := by
  cases hnew : new with
  | none => exact hold
  | some denom' =>
      rcases h denom' hnew with hnone | hsame
      · rw [hold] at hnone
        cases hnone
      · exact hsame.symm.trans hold

/-- Setting the denoms: one was missing and nothing is deposited, or both stay. -/
theorem Backed.configures {info : MessageInfo} {msg : ExecuteMsg} (h : Backed w)
    (hset : SetsOnce w (.execute info msg)) (hconf : Configures w.storage w'.storage msg)
    (hbank : ∀ denom, w.bank denom ≤ w'.bank denom) : Backed w' := by
  have hstate := hconf.state
  have husdcKept : ∀ denom, w.storage.config.usdcDenom = some denom →
      w'.storage.config.usdcDenom = some denom := by
    intro denom husdc
    rw [hconf.usdcDenom]
    cases msg with
    | setTokenInfo _ _ _ => exact denom_of_setsOnce hset.1 husdc
    | _ => exact husdc
  have hatomKept : ∀ denom, w.storage.config.atomDenom = some denom →
      w'.storage.config.atomDenom = some denom := by
    intro denom hatom
    rw [hconf.atomDenom]
    cases msg with
    | setTokenInfo _ _ _ => exact denom_of_setsOnce hset.2 hatom
    | _ => exact hatom
  have hntrn : w'.storage.config.NtrnApart →
      w'.storage.state.usdcNtrnSize + w'.storage.state.atomNtrnSize ≤
        w'.bank w'.storage.config.ntrnDenom := by
    intro hapart
    unfold Config.NtrnApart at hapart
    rw [hconf.terms.ntrnDenom] at hapart ⊢
    rw [hstate]
    refine (h.ntrn ⟨fun husdc => hapart.1 ?_, fun hatom => hapart.2 ?_⟩).trans (hbank _)
    · exact husdcKept _ husdc
    · exact hatomKept _ hatom
  -- nothing is deposited before both denoms are set, and set denoms stay
  by_cases hunset : w.storage.config.usdcDenom = none ∨ w.storage.config.atomDenom = none
  · obtain ⟨husdc, hatom⟩ := h.unset hunset
    rw [← hstate] at husdc hatom
    refine ⟨fun denom => ?_, fun _ => ⟨husdc, hatom⟩, hntrn⟩
    simp [Storage.owed, husdc, hatom]
  · obtain ⟨husdc, hatom⟩ := not_or.mp hunset
    obtain ⟨usdcDenom, husdc⟩ := Option.ne_none_iff_exists'.mp husdc
    obtain ⟨atomDenom, hatom⟩ := Option.ne_none_iff_exists'.mp hatom
    have husdc' := husdcKept _ husdc
    have hatom' := hatomKept _ hatom
    refine ⟨fun denom => ?_, fun hnone => ?_, hntrn⟩
    · have howed : w'.storage.owed denom = w.storage.owed denom := by
        simp only [Storage.owed, husdc', hatom', husdc, hatom, hstate]
      rw [howed]
      exact (h.covered denom).trans (hbank denom)
    · rw [husdc', hatom'] at hnone
      simp at hnone

/-- A transaction that keeps the configuration and the totals, and takes no coins. -/
theorem Backed.of_same (h : Backed w) (hconfig : w'.storage.config = w.storage.config)
    (husdc : w'.storage.state.totalUsdcDeposited = w.storage.state.totalUsdcDeposited)
    (hatom : w'.storage.state.totalAtomDeposited = w.storage.state.totalAtomDeposited)
    (hbank : ∀ denom, w.bank denom ≤ w'.bank denom)
    (hntrn : w'.storage.state.usdcNtrnSize + w'.storage.state.atomNtrnSize =
        w.storage.state.usdcNtrnSize + w.storage.state.atomNtrnSize ∨
      w'.storage.state.usdcNtrnSize + w'.storage.state.atomNtrnSize =
        w'.bank w.storage.config.ntrnDenom) : Backed w' where
  covered denom := by
    simp only [Storage.owed, hconfig, husdc, hatom]
    exact (h.covered denom).trans (hbank denom)
  unset := by
    rw [hconfig, husdc, hatom]
    exact h.unset
  ntrn hapart := by
    rw [hconfig] at hapart ⊢
    rcases hntrn with hsame | hall
    · rw [hsame]
      exact (h.ntrn hapart).trans (hbank _)
    · exact hall.le

theorem Backed.deposits {info : MessageInfo} {usdcDenom atomDenom : String}
    {usdcAmount atomAmount : Nat} (h : Backed w)
    (hdeposits : Deposits w.storage w'.storage w.env info usdcDenom atomDenom usdcAmount
      atomAmount)
    (hbank : w'.bank = w.bank.receive info.funds) : Backed w' := by
  have husdc := hdeposits.usdcDenom_eq
  have hatom := hdeposits.atomDenom_eq
  have hconfig : w'.storage.config = w.storage.config := by rw [hdeposits.storage]
  constructor
  · intro denom
    have hcovered := h.covered denom
    have hfunds := @depositAmounts_le _ _ denom _ _ _ hdeposits.amounts
    have howed : w'.storage.owed denom = w.storage.owed denom +
        ((if usdcDenom = denom then usdcAmount else 0) +
          if atomDenom = denom then atomAmount else 0) := by
      rw [hdeposits.storage]
      simp only [Storage.owed, husdc, hatom, Option.some.injEq]
      split_ifs <;> omega
    rw [hbank, Bank.receive_apply, howed]
    omega
  · rw [hconfig, husdc, hatom]
    simp
  · intro hapart
    rw [hconfig] at hapart ⊢
    have hntrn := (h.ntrn hapart).trans (le_receive w.bank info.funds _)
    rw [hbank]
    rw [hdeposits.storage]
    exact hntrn

theorem Backed.withdraws {info : MessageInfo} {msgs : List CosmosMsg}
    {usdcDenom atomDenom : String} {amountUsdc amountAtom : Nat} {user : UserInfo}
    {percent : Decimal} (h : Backed w)
    (hwithdraws : Withdraws w.storage w'.storage w.env info msgs usdcDenom atomDenom amountUsdc
      amountAtom user percent)
    (hbank : (w.bank.receive info.funds).send (msgs.flatMap CosmosMsg.coins) = .ok w'.bank) :
    Backed w' := by
  have husdc := hwithdraws.usdcDenom_eq
  have hatom := hwithdraws.atomDenom_eq
  have hconfig : w'.storage.config = w.storage.config := by rw [hwithdraws.storage]
  have hsent : ∀ denom, w.bank.receive info.funds denom = w'.bank denom +
      ((if usdcDenom = denom then amountUsdc else 0) +
        if atomDenom = denom then amountAtom else 0) := by
    intro denom
    have hsent := Bank.send_ok hbank denom
    rwa [hwithdraws.messages, List.flatMap_append, Bank.amountOf_append, amountOf_withdrawMsg,
      amountOf_withdrawMsg] at hsent
  constructor
  · intro denom
    have hcovered := (h.covered denom).trans (le_receive w.bank info.funds denom)
    have husdcLe := hwithdraws.totalUsdc_le
    have hatomLe := hwithdraws.totalAtom_le
    have howed : w.storage.owed denom = w'.storage.owed denom +
        ((if usdcDenom = denom then amountUsdc else 0) +
          if atomDenom = denom then amountAtom else 0) := by
      rw [hwithdraws.storage]
      simp only [Storage.owed, husdc, hatom, Option.some.injEq]
      split_ifs <;> omega
    have := hsent denom
    omega
  · rw [hconfig, husdc, hatom]
    simp
  · intro hapart
    rw [hconfig] at hapart ⊢
    have hntrn := (h.ntrn hapart).trans (le_receive w.bank info.funds _)
    -- what is paid out is not NTRN
    have hpaid := hsent w.storage.config.ntrnDenom
    rw [if_neg fun heq => hapart.1 (by rw [husdc, heq]),
      if_neg fun heq => hapart.2 (by rw [hatom, heq])] at hpaid
    rw [hpaid] at hntrn
    rw [hwithdraws.storage]
    exact hntrn

/-- Messages without coins leave what was received. -/
theorem bank_of_no_coins {info : MessageInfo} {msgs : List CosmosMsg}
    (h : (w.bank.receive info.funds).send (msgs.flatMap CosmosMsg.coins) = .ok w'.bank)
    (hmsgs : msgs.flatMap CosmosMsg.coins = []) : w'.bank = w.bank.receive info.funds := by
  rw [hmsgs] at h
  exact (Except.ok.inj h).symm

theorem vestingMsg_coins {lpToken vesting : Addr} {amount : Nat}
    {accounts : List Vesting.VestingAccount} :
    (vestingMsg lpToken vesting amount accounts).flatMap CosmosMsg.coins = [] := by
  unfold vestingMsg
  split_ifs <;> rfl

/-- A transaction before the pools are made keeps the coins. -/
theorem Backed.execute {info : MessageInfo} {msg : ExecuteMsg}
    (h : w.storage.Unminted → Backed w) (hset : SetsOnce w (.execute info msg))
    (hexec : w.execute x info msg = .ok w') : w'.storage.Unminted → Backed w' := by
  intro hunminted
  rcases execute_cases hexec with ⟨msgs, hresponds, hmsg⟩ | ⟨-, w₁, usdcDenom, atomDenom, poolInfo,
    prev, cur, lockdrop, provide₁, provide₂, msgs, hinit⟩
  · have heffect := hresponds.effect
    have hbank := hresponds.bank
    unfold Storage.Unminted at h hunminted
    cases heffect with
    | configure _ _ hmsgs hconf =>
        rw [hconf.state] at hunminted
        refine (h hunminted).configures hset hconf ?_
        rw [bank_of_no_coins hbank (by rw [hmsgs]; rfl)]
        exact le_receive _ _
    | deposit _ _ _ _ hmsgs hdeposits =>
        rw [hdeposits.storage] at hunminted
        exact (h hunminted).deposits hdeposits (bank_of_no_coins hbank (by rw [hmsgs]; rfl))
    | withdraw _ _ _ _ _ _ hwithdraws =>
        rw [hwithdraws.storage] at hunminted
        exact (h hunminted).withdraws hwithdraws hbank
    | size _ _ _ _ _ _ _ _ hmsgs hsizes =>
        rw [hsizes.storage] at hunminted
        have hreceived := bank_of_no_coins hbank (by rw [hmsgs]; rfl)
        refine (h hunminted).of_same (by rw [hsizes.storage]) (by rw [hsizes.storage])
          (by rw [hsizes.storage]) ?_ (Or.inr ?_)
        · rw [hreceived]
          exact le_receive _ _
        · -- all the NTRN of the contract was divided
          rw [hsizes.storage, hreceived]
          exact hsizes.split.trans (Except.ok.inj hsizes.balance_eq).symm
    | initPool => exact absurd rfl hmsg
    | lock asset _ _ _ _ hlocks =>
        obtain ⟨husdc, hatom, -, -⟩ := withLpLocked_sizes asset w.storage.state
          (w.storage.state.lpLocked asset + _)
        rw [hlocks.storage] at hunminted
        refine (h ?_).of_same (by rw [hlocks.storage]) (by simp [hlocks.storage])
          (by simp [hlocks.storage]) ?_ (Or.inl ?_)
        · cases asset <;> exact hunminted
        · rw [bank_of_no_coins hbank (by rw [hlocks.messages]; rfl)]
          exact le_receive _ _
        · rw [hlocks.storage, husdc, hatom]
    | unlock asset _ _ _ _ hunlocks =>
        obtain ⟨husdc, hatom, -, -⟩ := withLpLocked_sizes asset w.storage.state
          (w.storage.state.lpLocked asset - _)
        rw [hunlocks.storage] at hunminted
        refine (h ?_).of_same (by rw [hunlocks.storage]) (by simp [hunlocks.storage])
          (by simp [hunlocks.storage]) ?_ (Or.inl ?_)
        · cases asset <;> exact hunminted
        · rw [bank_of_no_coins hbank (by rw [hunlocks.messages]; rfl)]
          exact le_receive _ _
        · rw [hunlocks.storage, husdc, hatom]
    | vest _ _ hvests =>
        rw [hvests.storage] at hunminted
        refine (h hunminted).of_same (by rw [hvests.storage]) (by rw [hvests.storage])
          (by rw [hvests.storage]) ?_ (Or.inl (by rw [hvests.storage]))
        rw [bank_of_no_coins hbank (by
          rw [hvests.messages, List.flatMap_append, vestingMsg_coins, vestingMsg_coins]
          rfl)]
        exact le_receive _ _
  · rw [hinit.finalizes.storage] at hunminted
    cases hunminted

/-! ### Whole runs -/

theorem started_books (h : Started w) : Books w.storage := by
  obtain ⟨⟨env, info, msg, hinst, -⟩, -⟩ := h
  unfold instantiate at hinst
  simp only [bind_eq_ok, rejectIf_eq_ok, exists_const, Except.ok.injEq] at hinst
  obtain ⟨-, hstorage⟩ := hinst
  rw [← hstorage]
  constructor <;> intro p <;> cases p <;> rfl

theorem started_backed (h : Started w) : Backed w := by
  obtain ⟨⟨env, info, msg, hinst, -⟩, -⟩ := h
  unfold instantiate at hinst
  simp only [bind_eq_ok, rejectIf_eq_ok, exists_const, Except.ok.injEq] at hinst
  obtain ⟨-, hstorage⟩ := hinst
  constructor <;> rw [← hstorage]
  · intro denom
    simp [Storage.owed, InstantiateMsg.storage]
  · exact fun _ => ⟨rfl, rfl⟩
  · exact fun _ => Nat.zero_le _

/-- Coins and messages of the chain around the auction. -/
theorem Backed.world {w' : World E} (h : Backed w) (hstorage : w'.storage = w.storage)
    (hbank : ∀ denom, w.bank denom ≤ w'.bank denom) : Backed w' :=
  h.of_same (by rw [hstorage]) (by rw [hstorage]) (by rw [hstorage]) hbank
    (Or.inl (by rw [hstorage]))

/-- One action of a run. -/
theorem books_exec {a : Action E} (h : Books w.storage ∧ (w.storage.Unminted → Backed w))
    (hset : SetsOnce w a) (hexec : w.exec x a = .ok w') :
    Books w'.storage ∧ (w'.storage.Unminted → Backed w') := by
  cases a with
  | advance seconds blocks =>
      obtain rfl := Except.ok.inj hexec
      exact ⟨h.1, fun hunminted => (h.2 hunminted).world rfl fun _ => le_rfl⟩
  | drift ext =>
      obtain rfl := Except.ok.inj hexec
      exact ⟨h.1, fun hunminted => (h.2 hunminted).world rfl fun _ => le_rfl⟩
  | donate coins =>
      obtain rfl := Except.ok.inj hexec
      exact ⟨h.1, fun hunminted => (h.2 hunminted).world rfl (le_receive _ _)⟩
  | execute info msg => exact ⟨h.1.execute hexec, Backed.execute h.2 hset hexec⟩

/-- The coins of the liquidity of one pool. -/
theorem amountOf_provide {pool : Addr} {baseAmount otherAmount : Nat}
    {baseDenom otherDenom denom : String} :
    Bank.amountOf denom (buildProvideLiquidityToLpPoolMsg pool baseAmount baseDenom otherAmount
        otherDenom).coins =
      (if baseDenom = denom then baseAmount else 0) +
        if otherDenom = denom then otherAmount else 0 := by
  unfold buildProvideLiquidityToLpPoolMsg CosmosMsg.coins
  split_ifs <;> simp_all

/-- Both provisions of liquidity can be paid. -/
theorem Backed.funds (h : Backed w) (hapart : w.storage.config.NtrnApart)
    {usdcDenom atomDenom : String} (husdc : w.storage.config.usdcDenom = some usdcDenom)
    (hatom : w.storage.config.atomDenom = some atomDenom) (usdcPool atomPool : Addr) :
    ∃ bank, w.bank.send
      ((buildProvideLiquidityToLpPoolMsg usdcPool w.storage.state.usdcNtrnSize
          w.storage.config.ntrnDenom w.storage.state.totalUsdcDeposited usdcDenom).coins ++
        (buildProvideLiquidityToLpPoolMsg atomPool w.storage.state.atomNtrnSize
          w.storage.config.ntrnDenom w.storage.state.totalAtomDeposited atomDenom).coins) =
      .ok bank := by
  refine Bank.send_isOk fun denom => ?_
  rw [Bank.amountOf_append, amountOf_provide, amountOf_provide]
  by_cases hdenom : w.storage.config.ntrnDenom = denom
  · have hntrn := h.ntrn hapart
    rw [hdenom] at hntrn
    rw [if_pos hdenom, if_pos hdenom,
      if_neg fun heq => hapart.1 (by rw [husdc, heq, hdenom]),
      if_neg fun heq => hapart.2 (by rw [hatom, heq, hdenom])]
    exact hntrn
  · have hcovered := h.covered denom
    simp only [Storage.owed, husdc, hatom, Option.some.injEq] at hcovered
    rw [if_neg hdenom, if_neg hdenom, Nat.zero_add, Nat.zero_add]
    exact hcovered

/-- The ledger of the deposits beside the users and the coins. -/
structure DepositLedger (w : World E) : Prop where
  /-- The totals are sums over the users. -/
  books : Books w.storage
  /-- Before `InitPool` the coins cover each total. -/
  covered : w.storage.Unminted →
    (∀ denom, w.storage.config.usdcDenom = some denom →
      w.storage.state.totalUsdcDeposited ≤ w.bank denom) ∧
    ∀ denom, w.storage.config.atomDenom = some denom →
      w.storage.state.totalAtomDeposited ≤ w.bank denom
  /-- The NTRN of the pools is there. -/
  ntrn : w.storage.Unminted → w.storage.config.NtrnApart →
    w.storage.state.usdcNtrnSize + w.storage.state.atomNtrnSize ≤
      w.bank w.storage.config.ntrnDenom
  /-- Both messages of `InitPool` can be paid. -/
  funded : w.storage.Unminted → w.storage.config.NtrnApart →
    ∀ usdcDenom atomDenom usdcPool atomPool, w.storage.config.usdcDenom = some usdcDenom →
      w.storage.config.atomDenom = some atomDenom →
      ∃ bank, w.bank.send
        ((buildProvideLiquidityToLpPoolMsg usdcPool w.storage.state.usdcNtrnSize
            w.storage.config.ntrnDenom w.storage.state.totalUsdcDeposited usdcDenom).coins ++
          (buildProvideLiquidityToLpPoolMsg atomPool w.storage.state.atomNtrnSize
            w.storage.config.ntrnDenom w.storage.state.totalAtomDeposited atomDenom).coins) =
        .ok bank

/-- The ledger agrees in every state of a run that sets each denom once. -/
theorem deposit_ledger {w₀ : World E} (hstart : Started w₀) {as : List (Action E)}
    (hset : Along (World.exec x) SetsOnce w₀ as) :
    DepositLedger (run (World.exec x) w₀ as) := by
  have hboth := @run_invariant_along _ _ _ (World.exec x) SetsOnce
    (fun t : World E => Books t.storage ∧ (t.storage.Unminted → Backed t))
    (fun t a t' ht ha hexec => books_exec ht ha hexec) as w₀
    ⟨started_books hstart, fun _ => started_backed hstart⟩ hset
  obtain ⟨hbooks, hbacked⟩ := hboth
  refine ⟨hbooks, fun hunminted => ⟨fun denom husdc => ?_, fun denom hatom => ?_⟩,
    fun hunminted => (hbacked hunminted).ntrn,
    fun hunminted hapart _ _ usdcPool atomPool husdc hatom =>
      (hbacked hunminted).funds hapart husdc hatom usdcPool atomPool⟩
  · have hcovered := (hbacked hunminted).covered denom
    rw [Storage.owed, if_pos husdc] at hcovered
    omega
  · have hcovered := (hbacked hunminted).covered denom
    rw [Storage.owed, if_pos hatom] at hcovered
    omega

theorem deposit_ledger_sample :
    DepositLedger (run (World.exec sampleExternals) (sampleStart 10)
      (sampleDeposits [⟨"usdc", 2000⟩])) :=
  deposit_ledger (sampleStart_started 10)
    ⟨⟨fun _ _ => Or.inl rfl, fun _ _ => Or.inl rfl⟩, trivial, trivial, trivial⟩

/-- An auction whose USDC denom is NTRN itself, until the pool size is set. -/
def ntrnAsUsdc : List (Action SampleExt) :=
  [.execute ⟨"manager", []⟩ (.setTokenInfo (some "untrn") (some "atom") (some samplePools)),
    .execute ⟨"alice", [⟨"atom", 2000⟩, ⟨"untrn", 2000⟩]⟩ .deposit,
    .donate [⟨"untrn", 4000⟩], .advance 20 1, bobSetsPoolSize]

/-- `SetPoolSize` divides the deposited NTRN as well, and the two pools need more than there is:
`InitPool` fails, until somebody sends the rest. -/
theorem initPool_unfunded :
    Along (World.exec sampleExternals) SetsOnce (sampleStart 10) ntrnAsUsdc ∧
      (run (World.exec sampleExternals) (sampleStart 10) ntrnAsUsdc).bank "untrn" = 6000 ∧
      (run (World.exec sampleExternals) (sampleStart 10)
        ntrnAsUsdc).storage.state.usdcNtrnSize = 3000 ∧
      (run (World.exec sampleExternals) (sampleStart 10)
        ntrnAsUsdc).storage.state.atomNtrnSize = 3000 ∧
      (run (World.exec sampleExternals) (sampleStart 10)
        ntrnAsUsdc).storage.state.totalUsdcDeposited = 2000 ∧
      ((run (World.exec sampleExternals) (sampleStart 10)
        (ntrnAsUsdc ++ [.advance 10 1])).exec sampleExternals
          (.execute ⟨"bob", []⟩ .initPool)).isOk = false ∧
      ((run (World.exec sampleExternals) (sampleStart 10)
        (ntrnAsUsdc ++ [.advance 10 1, .donate [⟨"untrn", 2000⟩]])).exec sampleExternals
          (.execute ⟨"bob", []⟩ .initPool)).isOk = true :=
  ⟨⟨⟨fun _ _ => Or.inl rfl, fun _ _ => Or.inl rfl⟩, trivial, trivial, trivial, trivial, trivial⟩,
    by decide +kernel⟩

end NeutronTge.Auction
