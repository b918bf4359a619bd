import NeutronTge.Shares.Percent
import NeutronTge.Auction.Transactions

/-!
# NeutronTge.Auction.Deposits

Who can change a deposit, and when. `Moves` has the three things a transaction can do to the
deposits: one user deposits in the deposit window, one withdraws within the limit of
`allowed_withdrawal_percent`, or nothing happens to them.
-/

namespace NeutronTge.Auction

open CosmWasm Astroport
open Lockdrop (PoolType)
open Shares (decliningLimit)

variable {E : Type} {x : Externals E} {w w' : World E}

/-! ### The withdrawal limit -/

/-- The atomics of `allowed_withdrawal_percent`. -/
def Config.withdrawalLimit (config : Config) (t : Nat) : Nat :=
  decliningLimit FixedPoint.fractional config.depositsEnd config.withdrawalWindow t

theorem allowedWithdrawalPercent_ok {config : Config} {t : Nat} {percent : Decimal}
    (h : allowedWithdrawalPercent t config = .ok percent) :
    percent.atomics = config.withdrawalLimit t :=
  Shares.percentAt_ok h

/-! ### What a transaction does to the deposits -/

/-- The deposits are the same, and so is who withdrew. -/
structure SameDeposits (s s' : Storage) : Prop where
  totalUsdc : s'.state.totalUsdcDeposited = s.state.totalUsdcDeposited
  totalAtom : s'.state.totalAtomDeposited = s.state.totalAtomDeposited
  usdc : ∀ u, (s'.user u).usdcDeposited = (s.user u).usdcDeposited
  atom : ∀ u, (s'.user u).atomDeposited = (s.user u).atomDeposited
  withdrawn : ∀ u, (s'.user u).withdrawn = (s.user u).withdrawn

namespace SameDeposits

variable {s s' t : Storage}

theorem refl (s : Storage) : SameDeposits s s :=
  ⟨rfl, rfl, fun _ => rfl, fun _ => rfl, fun _ => rfl⟩

theorem trans (h : SameDeposits s t) (h' : SameDeposits t s') : SameDeposits s s' where
  totalUsdc := h'.totalUsdc.trans h.totalUsdc
  totalAtom := h'.totalAtom.trans h.totalAtom
  usdc u := (h'.usdc u).trans (h.usdc u)
  atom u := (h'.atom u).trans (h.atom u)
  withdrawn u := (h'.withdrawn u).trans (h.withdrawn u)

/-- The users are stored as they were. -/
theorem of_users (hstate : s'.state.totalUsdcDeposited = s.state.totalUsdcDeposited ∧
    s'.state.totalAtomDeposited = s.state.totalAtomDeposited) (husers : s'.users = s.users) :
    SameDeposits s s' := by
  have huser : ∀ u, s'.user u = s.user u := by
    intro u
    unfold Storage.user
    rw [husers]
  refine ⟨hstate.1, hstate.2, fun u => ?_, fun u => ?_, fun u => ?_⟩ <;> rw [huser]

/-- One user is stored with the same deposits. -/
theorem of_save (hstate : s'.state.totalUsdcDeposited = s.state.totalUsdcDeposited ∧
    s'.state.totalAtomDeposited = s.state.totalAtomDeposited) {addr : Addr} {user : UserInfo}
    (husers : s'.users = s.users.save addr user)
    (hsame : user.usdcDeposited = (s.user addr).usdcDeposited ∧
      user.atomDeposited = (s.user addr).atomDeposited ∧
      user.withdrawn = (s.user addr).withdrawn) : SameDeposits s s' := by
  obtain ⟨husdc, hatom, hwithdrawn⟩ := hsame
  refine ⟨hstate.1, hstate.2, fun u => ?_, fun u => ?_, fun u => ?_⟩ <;>
    rw [user_save husers] <;> split_ifs with hu
  · rw [hu, husdc]
  · rfl
  · rw [hu, hatom]
  · rfl
  · rw [hu, hwithdrawn]
  · rfl

end SameDeposits

@[simp] theorem withLpLocked_deposits (p : PoolType) (s : State) (n : Nat) :
    (s.withLpLocked p n).totalUsdcDeposited = s.totalUsdcDeposited ∧
      (s.withLpLocked p n).totalAtomDeposited = s.totalAtomDeposited := by
  cases p <;> exact ⟨rfl, rfl⟩

@[simp] theorem withLpLocked_user (p : PoolType) (u : UserInfo) (n : Nat) :
    (u.withLpLocked p n).usdcDeposited = u.usdcDeposited ∧
      (u.withLpLocked p n).atomDeposited = u.atomDeposited ∧
      (u.withLpLocked p n).withdrawn = u.withdrawn := by
  cases p <;> exact ⟨rfl, rfl, rfl⟩

theorem Vests.sameDeposits {s s' : Storage} {env : Env} {msgs : List CosmosMsg}
    {entries : List (Addr × UserInfo)} {poolInfo : PoolInfo}
    (h : Vests s s' env msgs entries poolInfo) : SameDeposits s s' := by
  have huser : ∀ u, s'.user u = s.user u ∨ s'.user u = { s.user u with isVested := true } := by
    intro u
    unfold Storage.user
    rcases h.mayLoad u with ⟨-, user, hstored, -, -, hmarked⟩ | ⟨-, hsame⟩
    · right
      rw [hmarked, hstored]
      rfl
    · left
      rw [hsame]
  have hstate : s'.state = s.state := by rw [h.storage]
  refine ⟨by rw [hstate], by rw [hstate], fun u => ?_, fun u => ?_, fun u => ?_⟩ <;>
    rcases huser u with hu | hu <;> rw [hu]

/-- What a transaction does to the deposits. -/
inductive Moves (w w' : World E) (info : MessageInfo) (msg : ExecuteMsg) : Prop
  | deposited (usdcDenom atomDenom : String) (usdcAmount atomAmount : Nat)
      (hmsg : msg = .deposit)
      (h : Deposits w.storage w'.storage w.env info usdcDenom atomDenom usdcAmount atomAmount)
  | withdrawn (usdcDenom atomDenom : String) (amountUsdc amountAtom : Nat) (user : UserInfo)
      (percent : Decimal) (msgs : List CosmosMsg) (hmsg : msg = .withdraw amountUsdc amountAtom)
      (h : Withdraws w.storage w'.storage w.env info msgs usdcDenom atomDenom amountUsdc amountAtom
        user percent)
  | kept (h : SameDeposits w.storage w'.storage)

theorem World.execute_moves {info : MessageInfo} {msg : ExecuteMsg}
    (hexec : w.execute x info msg = .ok w') : Moves w w' info msg := by
  rcases execute_cases hexec with ⟨msgs, hresponds, hmsg⟩ | ⟨-, w₁, usdcDenom, atomDenom, poolInfo,
    prev, cur, lockdrop, provide₁, provide₂, msgs, hinit⟩
  · have heffect := hresponds.effect
    cases heffect with
    | configure _ _ _ h =>
        exact .kept (.of_users ⟨by rw [h.state], by rw [h.state]⟩ h.users)
    | deposit usdcDenom atomDenom usdcAmount atomAmount _ h =>
        exact .deposited usdcDenom atomDenom usdcAmount atomAmount rfl h
    | withdraw usdcDenom atomDenom amountUsdc amountAtom user percent h =>
        exact .withdrawn usdcDenom atomDenom amountUsdc amountAtom user percent _ rfl h
    | size _ _ _ _ _ _ _ _ _ h =>
        exact .kept (.of_users (by simp [h.storage]) (by rw [h.storage]))
    | initPool => exact absurd rfl hmsg
    | lock asset amount duration user lockdrop h =>
        have huser := user_eq_of_load h.user_eq
        refine .kept (.of_save (by simp [h.storage]) (by rw [h.storage]) ?_)
        rw [huser]
        exact withLpLocked_user _ _ _
    | unlock asset amount duration user lockdrop h =>
        have huser := user_eq_of_load h.user_eq
        refine .kept (.of_save (by simp [h.storage]) (by rw [h.storage]) ?_)
        rw [huser]
        exact withLpLocked_user _ _ _
    | vest entries poolInfo h => exact .kept h.sameDeposits
  · have hstorage := hinit.finalizes.storage
    exact .kept (.of_users (by simp [hstorage]) (by rw [hstorage]))

/-! ### What a transaction does to the configuration and the pool sizes -/

theorem World.execute_terms {info : MessageInfo} {msg : ExecuteMsg}
    (hexec : w.execute x info msg = .ok w') :
    w.storage.config.SameTerms w'.storage.config ∧ w'.env = w.env := by
  rcases execute_cases hexec with ⟨msgs, hresponds, hmsg⟩ | ⟨-, w₁, usdcDenom, atomDenom, poolInfo,
    prev, cur, lockdrop, provide₁, provide₂, msgs, hinit⟩
  · refine ⟨?_, hresponds.env⟩
    have heffect := hresponds.effect
    cases heffect with
    | configure _ _ _ h => exact h.terms
    | deposit _ _ _ _ _ h => simp [h.storage, Config.SameTerms.refl]
    | withdraw _ _ _ _ _ _ h => simp [h.storage, Config.SameTerms.refl]
    | size _ _ _ _ _ _ _ _ _ h => simp [h.storage, Config.SameTerms.refl]
    | initPool => exact absurd rfl hmsg
    | lock _ _ _ _ _ h => simp [h.storage, Config.SameTerms.refl]
    | unlock _ _ _ _ _ h => simp [h.storage, Config.SameTerms.refl]
    | vest _ _ h => simp [h.storage, Config.SameTerms.refl]
  · refine ⟨?_, hinit.env⟩
    simp [hinit.finalizes.storage, Config.SameTerms.refl]

/-- The terms stay, and time does not go back. -/
theorem World.exec_terms {a : Action E} (h : w.exec x a = .ok w') :
    w.storage.config.SameTerms w'.storage.config ∧ w.env.time ≤ w'.env.time := by
  cases a with
  | advance seconds blocks =>
      obtain rfl := Except.ok.inj h
      exact ⟨.refl _, Nat.le_add_right _ _⟩
  | drift ext =>
      obtain rfl := Except.ok.inj h
      exact ⟨.refl _, le_rfl⟩
  | donate coins =>
      obtain rfl := Except.ok.inj h
      exact ⟨.refl _, le_rfl⟩
  | execute info msg =>
      obtain ⟨hterms, henv⟩ := World.execute_terms h
      exact ⟨hterms, by rw [henv]⟩

/-- The sizes of the pools are the same. -/
structure SameSizes (s s' : Storage) : Prop where
  ntrnSize : ∀ p, s'.state.ntrnSize p = s.state.ntrnSize p
  lpSize : ∀ p, s'.state.lpSize p = s.state.lpSize p

namespace SameSizes

variable {s s' t : Storage}

theorem refl (s : Storage) : SameSizes s s := ⟨fun _ => rfl, fun _ => rfl⟩

theorem trans (h : SameSizes s t) (h' : SameSizes t s') : SameSizes s s' where
  ntrnSize p := (h'.ntrnSize p).trans (h.ntrnSize p)
  lpSize p := (h'.lpSize p).trans (h.lpSize p)

theorem of_state (h : s'.state = s.state) : SameSizes s s' := by
  constructor <;> intro p <;> rw [h]

/-- The state differs in other fields. -/
theorem of_fields (h : s'.state.usdcNtrnSize = s.state.usdcNtrnSize ∧
    s'.state.atomNtrnSize = s.state.atomNtrnSize ∧ s'.state.usdcLpSize = s.state.usdcLpSize ∧
    s'.state.atomLpSize = s.state.atomLpSize) : SameSizes s s' := by
  obtain ⟨husdc, hatom, husdcLp, hatomLp⟩ := h
  constructor <;> intro p <;> cases p
  · exact husdc
  · exact hatom
  · exact husdcLp
  · exact hatomLp

end SameSizes

theorem withLpLocked_sizes (p : PoolType) (s : State) (n : Nat) :
    (s.withLpLocked p n).usdcNtrnSize = s.usdcNtrnSize ∧
      (s.withLpLocked p n).atomNtrnSize = s.atomNtrnSize ∧
      (s.withLpLocked p n).usdcLpSize = s.usdcLpSize ∧
      (s.withLpLocked p n).atomLpSize = s.atomLpSize := by
  cases p <;> exact ⟨rfl, rfl, rfl, rfl⟩

/-- Only `SetPoolSize` sets the sizes. -/
theorem World.execute_sizes {info : MessageInfo} {msg : ExecuteMsg}
    (hexec : w.execute x info msg = .ok w') :
    SameSizes w.storage w'.storage ∨ msg = .setPoolSize ∧
      ∃ atom usdc ratio ntrnAmount usdcNtrnSize atomNtrnSize usdcLpSize atomLpSize,
        Sizes ((w.receive info).querier x) w.storage w'.storage w.env atom usdc ratio ntrnAmount
          usdcNtrnSize atomNtrnSize usdcLpSize atomLpSize := by
  rcases execute_cases hexec with ⟨msgs, hresponds, hmsg⟩ | ⟨-, w₁, usdcDenom, atomDenom, poolInfo,
    prev, cur, lockdrop, provide₁, provide₂, msgs, hinit⟩
  · have heffect := hresponds.effect
    cases heffect with
    | configure _ _ _ h => exact Or.inl (.of_state h.state)
    | deposit _ _ _ _ _ h => exact Or.inl (.of_fields (by simp [h.storage]))
    | withdraw _ _ _ _ _ _ h => exact Or.inl (.of_fields (by simp [h.storage]))
    | size atom usdc ratio ntrnAmount usdcNtrnSize atomNtrnSize usdcLpSize atomLpSize _ h =>
        exact Or.inr ⟨rfl, atom, usdc, ratio, ntrnAmount, usdcNtrnSize, atomNtrnSize, usdcLpSize,
          atomLpSize, h⟩
    | initPool => exact absurd rfl hmsg
    | lock _ _ _ _ _ h =>
        refine Or.inl (.of_fields ?_)
        rw [h.storage]
        exact withLpLocked_sizes _ _ _
    | unlock _ _ _ _ _ h =>
        refine Or.inl (.of_fields ?_)
        rw [h.storage]
        exact withLpLocked_sizes _ _ _
    | vest _ _ h => exact Or.inl (.of_state (by rw [h.storage]))
  · exact Or.inl (.of_fields (by simp [hinit.finalizes.storage]))

/-! ### Frozen deposits -/

/-- The windows are over and the pool sizes are set. -/
structure Frozen (w : World E) : Prop where
  late : w.storage.config.closing ≤ w.env.time
  sized : ∀ p, 0 < w.storage.state.ntrnSize p

/-- No `Withdraw` is executed at the very end of the deposit window of an auction without a
withdrawal window. -/
def Timely (w : World E) : Action E → Prop
  | .execute _ (.withdraw ..) =>
      0 < w.storage.config.withdrawalWindow ∨ w.env.time ≠ w.storage.config.depositsEnd
  | _ => True

/-- A successful `SetPoolSize` gives both pools some NTRN. -/
theorem Sizes.ntrnSize_pos {q : Querier} {s s' : Storage} {env : Env} {atom usdc : PriceFeedRate}
    {ratio : Decimal} {ntrnAmount usdcNtrnSize atomNtrnSize usdcLpSize atomLpSize : Nat}
    (h : Sizes q s s' env atom usdc ratio ntrnAmount usdcNtrnSize atomNtrnSize usdcLpSize
      atomLpSize) (p : PoolType) : 0 < s'.state.ntrnSize p := by
  rw [h.storage]
  cases p with
  | usdc => exact (getLpSize_pos h.usdcLpSize_eq).1
  | atom => exact (getLpSize_pos h.atomLpSize_eq).1

/-- Sizes that are set are not set again. -/
theorem Frozen.sizes {info : MessageInfo} {msg : ExecuteMsg} (hfrozen : Frozen w)
    (h : w.execute x info msg = .ok w') : SameSizes w.storage w'.storage := by
  rcases World.execute_sizes h with hsame | ⟨-, _, _, _, _, _, _, _, _, hsizes⟩
  · exact hsame
  · exact absurd hsizes.unset.1 (hfrozen.sized .usdc).ne'

/-- After the windows the limit is zero, and nothing can be withdrawn. -/
theorem Withdraws.not_late {s s' : Storage} {env : Env} {info : MessageInfo}
    {msgs : List CosmosMsg} {usdcDenom atomDenom : String} {amountUsdc amountAtom : Nat}
    {user : UserInfo} {percent : Decimal}
    (h : Withdraws s s' env info msgs usdcDenom atomDenom amountUsdc amountAtom user percent)
    (htimely : 0 < s.config.withdrawalWindow ∨ env.time ≠ s.config.depositsEnd) :
    env.time < s.config.closing := by
  by_contra hlate
  have hlimit : s.config.withdrawalLimit env.time = 0 :=
    Shares.decliningLimit_after (Nat.le_of_not_lt hlate) htimely
  have hzero : percent.atomics = 0 := (allowedWithdrawalPercent_ok h.percent_eq).trans hlimit
  have husdc := h.usdc_le
  have hatom := h.atom_le
  simp only [hzero, Nat.mul_zero, Nat.zero_div, Nat.le_zero] at husdc hatom
  exact h.positive ⟨husdc, hatom⟩

/-- One action after `SetPoolSize`. -/
theorem Frozen.exec {a : Action E} (hfrozen : Frozen w) (htimely : Timely w a)
    (h : w.exec x a = .ok w') :
    Frozen w' ∧ SameDeposits w.storage w'.storage ∧ SameSizes w.storage w'.storage := by
  obtain ⟨hterms, htime⟩ := World.exec_terms h
  have hlate : w'.storage.config.closing ≤ w'.env.time := by
    rw [hterms.closing]
    exact hfrozen.late.trans htime
  have hboth : SameDeposits w.storage w'.storage ∧ SameSizes w.storage w'.storage := by
    cases a with
    | advance seconds blocks =>
        obtain rfl := Except.ok.inj h
        exact ⟨.refl _, .refl _⟩
    | drift ext =>
        obtain rfl := Except.ok.inj h
        exact ⟨.refl _, .refl _⟩
    | donate coins =>
        obtain rfl := Except.ok.inj h
        exact ⟨.refl _, .refl _⟩
    | execute info msg =>
        refine ⟨?_, hfrozen.sizes h⟩
        cases World.execute_moves h with
        | deposited _ _ _ _ _ hdeposits =>
            have hearly := hdeposits.early
            have hclosing := w.storage.config.depositsEnd_le_closing
            have := hfrozen.late
            omega
        | withdrawn _ _ _ _ _ _ _ hmsg hwithdraws =>
            rw [hmsg] at htimely
            exact absurd (hwithdraws.not_late htimely) (Nat.not_lt_of_le hfrozen.late)
        | kept hsame => exact hsame
  refine ⟨⟨hlate, fun p => ?_⟩, hboth⟩
  rw [hboth.2.ntrnSize]
  exact hfrozen.sized p

theorem frozen_of_setPoolSize {info : MessageInfo}
    (h : w.exec x (.execute info .setPoolSize) = .ok w') : Frozen w' := by
  replace h : w.execute x info .setPoolSize = .ok w' := h
  obtain ⟨hterms, henv⟩ := World.execute_terms h
  rcases execute_cases h with ⟨msgs, hresponds, -⟩ | ⟨hmsg, -⟩
  · have heffect := hresponds.effect
    cases heffect with
    | configure _ hmsg => cases hmsg
    | size atom usdc ratio ntrnAmount usdcNtrnSize atomNtrnSize usdcLpSize atomLpSize _ hsizes =>
        refine ⟨?_, hsizes.ntrnSize_pos⟩
        rw [hterms.closing, henv]
        exact hsizes.late
  · cases hmsg

/-- From a successful `SetPoolSize` on, the deposits and the sizes of the pools stay as they are
in every run that has no `Withdraw` at the very end of an empty withdrawal window. -/
theorem deposits_frozen {info : MessageInfo} {as : List (Action E)}
    (h : w.exec x (.execute info .setPoolSize) = .ok w')
    (htimely : Along (World.exec x) Timely w' as) :
    SameDeposits w'.storage (run (World.exec x) w' as).storage ∧
      SameSizes w'.storage (run (World.exec x) w' as).storage := by
  refine run_relation_along Frozen
    (fun t u => SameDeposits t.storage u.storage ∧ SameSizes t.storage u.storage) ?_ ?_ ?_ ?_
    (frozen_of_setPoolSize h) htimely
  · exact fun t => ⟨.refl _, .refl _⟩
  · exact fun t u v htu huv => ⟨htu.1.trans huv.1, htu.2.trans huv.2⟩
  · exact fun t a t' hfrozen ha hexec => (hfrozen.exec ha hexec).1
  · exact fun t a t' hfrozen ha hexec => (hfrozen.exec ha hexec).2

/-! ### Withdrawal limits -/

/-- Time only passes, and the terms stay, over every run. -/
theorem World.run_terms (w : World E) (as : List (Action E)) :
    w.storage.config.SameTerms (run (World.exec x) w as).storage.config ∧
      w.env.time ≤ (run (World.exec x) w as).env.time := by
  refine @run_invariant _ _ _ (World.exec x)
    (fun t : World E => w.storage.config.SameTerms t.storage.config ∧ w.env.time ≤ t.env.time) ?_
    as w ⟨.refl _, le_rfl⟩
  intro t a t' ⟨hterms, htime⟩ h
  obtain ⟨hterms', htime'⟩ := World.exec_terms h
  exact ⟨hterms.trans hterms', htime.trans htime'⟩

/-- The deposit window is over, and the user has withdrawn since. -/
structure Spent (u : Addr) (w : World E) : Prop where
  late : w.storage.config.depositsEnd ≤ w.env.time
  withdrawn : (w.storage.user u).withdrawn = true

theorem Spent.exec {u : Addr} {a : Action E} (hspent : Spent u w) (h : w.exec x a = .ok w') :
    Spent u w' := by
  obtain ⟨hterms, htime⟩ := World.exec_terms h
  refine ⟨by rw [hterms.depositsEnd]; exact hspent.late.trans htime, ?_⟩
  cases a with
  | advance seconds blocks =>
      obtain rfl := Except.ok.inj h
      exact hspent.withdrawn
  | drift ext =>
      obtain rfl := Except.ok.inj h
      exact hspent.withdrawn
  | donate coins =>
      obtain rfl := Except.ok.inj h
      exact hspent.withdrawn
  | execute info msg =>
      cases World.execute_moves h with
      | deposited _ _ _ _ _ hdeposits =>
          exact absurd hdeposits.early (Nat.not_lt_of_le hspent.late)
      | withdrawn _ _ _ _ user _ _ _ hwithdraws =>
          rw [user_save (by rw [hwithdraws.storage])]
          split_ifs with hu
          · -- the user himself is stopped by his flag
            have hflag := hspent.withdrawn
            rw [hu, user_eq_of_load hwithdraws.user_eq, hwithdraws.first] at hflag
            cases hflag
          · exact hspent.withdrawn
      | kept hsame =>
          rw [hsame.withdrawn]
          exact hspent.withdrawn

theorem withdraws_of_exec {info : MessageInfo} {amountUsdc amountAtom : Nat}
    (h : w.exec x (.execute info (.withdraw amountUsdc amountAtom)) = .ok w') :
    ∃ usdcDenom atomDenom user percent msgs, Withdraws w.storage w'.storage w.env info msgs
      usdcDenom atomDenom amountUsdc amountAtom user percent ∧ w'.trace = w.trace ++ msgs := by
  rcases execute_cases h with ⟨msgs, hresponds, -⟩ | ⟨hmsg, -⟩
  · have heffect := hresponds.effect
    cases heffect with
    | configure _ hmsg => cases hmsg
    | withdraw usdcDenom atomDenom _ _ user percent hwithdraws =>
        exact ⟨usdcDenom, atomDenom, user, percent, msgs, hwithdraws, hresponds.trace⟩
  · cases hmsg

/-- A withdrawal after the deposit window is the user's last. -/
theorem spent_of_withdraws {s' : Storage} {info : MessageInfo} {msgs : List CosmosMsg}
    {usdcDenom atomDenom : String} {amountUsdc amountAtom : Nat} {user : UserInfo}
    {percent : Decimal}
    (h : Withdraws w.storage s' w.env info msgs usdcDenom atomDenom amountUsdc amountAtom user
      percent) (hlate : w.storage.config.depositsEnd ≤ w.env.time) :
    (s'.user info.sender).withdrawn = true := by
  rw [user_save (by rw [h.storage]), if_pos rfl]
  exact decide_eq_true hlate

/-- A withdrawal within a limit: each amount is within it, leaves the user's deposit and goes to
him, and nothing else is sent or taken. -/
structure TakesWithin (w w' : World E) (sender : Addr) (amountUsdc amountAtom : Nat)
    (percent : Decimal) : Prop where
  usdc_le : amountUsdc ≤
    (w.storage.user sender).usdcDeposited * percent.atomics / FixedPoint.fractional
  atom_le : amountAtom ≤
    (w.storage.user sender).atomDeposited * percent.atomics / FixedPoint.fractional
  sent : ∃ usdcDenom atomDenom, w.storage.config.usdcDenom = some usdcDenom ∧
    w.storage.config.atomDenom = some atomDenom ∧
    w'.trace = w.trace ++ (withdrawMsg sender usdcDenom amountUsdc ++
      withdrawMsg sender atomDenom amountAtom)
  usdc : (w'.storage.user sender).usdcDeposited + amountUsdc =
    (w.storage.user sender).usdcDeposited
  atom : (w'.storage.user sender).atomDeposited + amountAtom =
    (w.storage.user sender).atomDeposited
  others : ∀ u, u ≠ sender → w'.storage.user u = w.storage.user u

theorem takesWithin_of_exec {info : MessageInfo} {amountUsdc amountAtom : Nat}
    (h : w.exec x (.execute info (.withdraw amountUsdc amountAtom)) = .ok w') :
    ∃ percent, allowedWithdrawalPercent w.env.time w.storage.config = .ok percent ∧
      TakesWithin w w' info.sender amountUsdc amountAtom percent := by
  obtain ⟨usdcDenom, atomDenom, user, percent, msgs, hwithdraws, htrace⟩ := withdraws_of_exec h
  have huser := user_eq_of_load hwithdraws.user_eq
  have hstored := user_save (congrArg Storage.users hwithdraws.storage)
  refine ⟨percent, hwithdraws.percent_eq, ?_⟩
  constructor
  · rw [huser]
    exact hwithdraws.usdc_le
  · rw [huser]
    exact hwithdraws.atom_le
  · rw [hwithdraws.messages] at htrace
    exact ⟨usdcDenom, atomDenom, hwithdraws.usdcDenom_eq, hwithdraws.atomDenom_eq, htrace⟩
  · rw [hstored, if_pos rfl, huser]
    exact Nat.sub_add_cancel hwithdraws.userUsdc_le
  · rw [hstored, if_pos rfl, huser]
    exact Nat.sub_add_cancel hwithdraws.userAtom_le
  · intro u hu
    rw [hstored, if_neg hu]

/-- What the auction allows of withdrawals once the deposit window is over. -/
structure LimitsWithdrawals (x : Externals E) (w : World E) : Prop where
  /-- The limit is at most one half. -/
  half : ∀ {t : Nat} {percent : Decimal}, w.storage.config.depositsEnd ≤ t →
    allowedWithdrawalPercent t w.storage.config = .ok percent →
    2 * percent.atomics ≤ FixedPoint.fractional
  /-- The limit does not grow. -/
  antitone : ∀ {t t' : Nat} {percent percent' : Decimal}, t ≤ t' →
    allowedWithdrawalPercent t w.storage.config = .ok percent →
    allowedWithdrawalPercent t' w.storage.config = .ok percent' →
    percent'.atomics ≤ percent.atomics
  /-- A withdrawal takes no more than the limit of each of the deposits. -/
  within : ∀ {info : MessageInfo} {amountUsdc amountAtom : Nat} {w' : World E},
    w.storage.config.depositsEnd ≤ w.env.time →
    w.exec x (.execute info (.withdraw amountUsdc amountAtom)) = .ok w' →
    ∃ percent, allowedWithdrawalPercent w.env.time w.storage.config = .ok percent ∧
      TakesWithin w w' info.sender amountUsdc amountAtom percent
  /-- It is the last one of the user. -/
  once : ∀ {info info' : MessageInfo} {amountUsdc amountAtom amountUsdc' amountAtom' : Nat}
    {w' w'' : World E} (as : List (Action E)), w.storage.config.depositsEnd ≤ w.env.time →
    w.exec x (.execute info (.withdraw amountUsdc amountAtom)) = .ok w' →
    info'.sender = info.sender →
    (run (World.exec x) w' as).exec x (.execute info' (.withdraw amountUsdc' amountAtom')) ≠
      .ok w''
  /-- After the withdrawal window there is none. -/
  closed : ∀ {info : MessageInfo} {amountUsdc amountAtom : Nat} {w' : World E},
    w.storage.config.closing ≤ w.env.time →
    w.exec x (.execute info (.withdraw amountUsdc amountAtom)) ≠ .ok w'

/-- The limits on withdrawals hold in every state of every run of an auction with a withdrawal
window. -/
theorem withdrawal_limits {w₀ : World E} (hwindow : 0 < w₀.storage.config.withdrawalWindow)
    (as : List (Action E)) :
    LimitsWithdrawals x (run (World.exec x) w₀ as) := by
  obtain ⟨hterms, -⟩ := World.run_terms (x := x) w₀ as
  rw [← hterms.withdrawalWindow] at hwindow
  clear hterms
  generalize run (World.exec x) w₀ as = w at hwindow
  constructor
  · intro t percent ht hpercent
    have hhalf : w.storage.config.withdrawalLimit t ≤ 50 * FixedPoint.fractional / 100 :=
      Shares.decliningLimit_le_half ht
    rw [allowedWithdrawalPercent_ok hpercent]
    omega
  · intro t t' percent percent' ht hpercent hpercent'
    rw [allowedWithdrawalPercent_ok hpercent, allowedWithdrawalPercent_ok hpercent']
    exact Shares.decliningLimit_antitone ht
  · intro info amountUsdc amountAtom w' _ h
    exact takesWithin_of_exec h
  · intro info info' _ _ _ _ w' w'' as' hlate h hsender h'
    obtain ⟨_, _, _, _, _, hfirst, -⟩ := withdraws_of_exec h
    obtain ⟨hterms, htime⟩ := World.exec_terms h
    have hspent : Spent info.sender w' :=
      ⟨by rw [hterms.depositsEnd]; exact hlate.trans htime, spent_of_withdraws hfirst hlate⟩
    have hspent' : Spent info.sender (run (World.exec x) w' as') :=
      @run_invariant _ _ _ (World.exec x) (Spent info.sender)
        (fun _ _ _ ht hexec => ht.exec hexec) as' w' hspent
    obtain ⟨_, _, user, _, _, hagain, -⟩ := withdraws_of_exec h'
    have hflag := hspent'.withdrawn
    rw [← hsender, user_eq_of_load hagain.user_eq, hagain.first] at hflag
    cases hflag
  · intro info _ _ w' hover h
    obtain ⟨_, _, _, _, _, hwithdraws, -⟩ := withdraws_of_exec h
    exact absurd (hwithdraws.not_late (Or.inl hwindow)) (Nat.not_lt_of_le hover)

/-! ### A sample auction -/

/-- The contracts around a sample auction: its LP tokens. -/
structure SampleExt where
  usdcLp : Nat
  atomLp : Nat
  deriving DecidableEq

/-- A pair of the small chain mints the square root of what it gets, as its real pairs do. -/
def SampleExt.provide (e : SampleExt) (pool : Addr) : List Asset → SampleExt
  | [a, b] =>
      let minted := Nat.sqrt (a.amount * b.amount) - minimumLiquidityAmount
      if pool = "usdc_pool" then { e with usdcLp := e.usdcLp + minted }
      else { e with atomLp := e.atomLp + minted }
  | _ => e

/-- The messages that move LP tokens; the small chain ignores the others. -/
def SampleExt.exec (e : SampleExt) : CosmosMsg → Except StdError SampleExt
  | .provideLiquidity pool assets _ => .ok (e.provide pool assets)
  | .lpTransfer token _ amount | .lpSend token _ amount _ =>
      if token = "usdc_lp" then do
        let rest ← Uint.checkedSub e.usdcLp amount
        .ok { e with usdcLp := rest }
      else do
        let rest ← Uint.checkedSub e.atomLp amount
        .ok { e with atomLp := rest }
  | _ => .ok e

/-- Rates of one at time 30, and the LP tokens of the auction. -/
def sampleExternals : Externals SampleExt where
  tokenBalance e token := .ok (if token = "usdc_lp" then e.usdcLp else e.atomLp)
  getRate _ _ := .ok [⟨1, 30, 0⟩, ⟨1, 30, 0⟩]
  exec := SampleExt.exec

/-- The pairs and LP tokens of the small chain. -/
def samplePools : PoolInfo := ⟨"usdc_pool", "atom_pool", "usdc_lp", "atom_lp"⟩

/-- A deposit window of ten seconds. -/
def sampleInstantiateMsg (withdrawalWindow : Nat) : InstantiateMsg where
  owner := none
  tokenInfoManager := "manager"
  priceFeedContract := "price_feed"
  lockdropContractAddress := some "lockdrop"
  reserveContractAddress := "reserve"
  vestingUsdcContractAddress := "vesting_usdc"
  vestingAtomContractAddress := "vesting_atom"
  lpTokensLockWindow := 10
  initTimestamp := 10
  depositWindow := 10
  withdrawalWindow := withdrawalWindow
  maxExchangeRateAge := 5
  minNtrnAmount := 1
  vestingMigrationPackSize := 1
  vestingLpDuration := 100

/-- An auction right after `instantiate`, with a withdrawal window of that length. -/
def sampleStart (withdrawalWindow : Nat) : World SampleExt where
  storage := (sampleInstantiateMsg withdrawalWindow).storage ⟨"owner", []⟩
  bank _ := 0
  ext := ⟨0, 0⟩
  env := ⟨10, 1, "auction"⟩
  trace := []

theorem sampleStart_started (n : Nat) : Started (sampleStart n) where
  storage := ⟨⟨10, 1, "auction"⟩, ⟨"owner", []⟩, sampleInstantiateMsg n, rfl, rfl⟩
  trace := rfl

/-- alice deposits, and the contract gets some NTRN. -/
def sampleDeposits (coins : List Coin) : List (Action SampleExt) :=
  [.execute ⟨"manager", []⟩ (.setTokenInfo (some "usdc") (some "atom") (some samplePools)),
    .execute ⟨"alice", coins⟩ .deposit,
    .donate [⟨"untrn", 4000⟩]]

/-- The run until the pool size can be set, without a withdrawal window. -/
def sampleWindowless : World SampleExt :=
  run (World.exec sampleExternals) (sampleStart 0)
    (sampleDeposits [⟨"atom", 2000⟩, ⟨"usdc", 2000⟩] ++ [.advance 10 1])

/-- Anybody may set the pool sizes. -/
def bobSetsPoolSize : Action SampleExt := .execute ⟨"bob", []⟩ .setPoolSize

/-- Alice takes 1000 USDC out again. -/
def aliceWithdrawsHalf : Action SampleExt := .execute ⟨"alice", []⟩ (.withdraw 1000 0)

/-- `SetPoolSize` in the second the deposit window ends, and half of a deposit is gone in the
same second: `usdc_lp_size` was made for 2000. -/
theorem withdrawn_after_setPoolSize :
    Started (sampleStart 0) ∧
      ((World.exec sampleExternals) sampleWindowless bobSetsPoolSize).isOk = true ∧
      (run (World.exec sampleExternals) sampleWindowless
        [bobSetsPoolSize]).storage.state.totalUsdcDeposited = 2000 ∧
      (run (World.exec sampleExternals) sampleWindowless
        [bobSetsPoolSize, aliceWithdrawsHalf]).storage.state.totalUsdcDeposited = 1000 ∧
      (run (World.exec sampleExternals) sampleWindowless
        [bobSetsPoolSize, aliceWithdrawsHalf]).storage.state.usdcLpSize = 1000 :=
  ⟨sampleStart_started 0, by decide +kernel⟩

/-- The run until the pool size can be set, with a withdrawal window of ten seconds. -/
def sampleClosed : World SampleExt :=
  run (World.exec sampleExternals) (sampleStart 10)
    (sampleDeposits [⟨"atom", 2000⟩, ⟨"usdc", 2000⟩] ++ [.advance 20 1])

theorem deposits_frozen_sample :
    SameDeposits (run (World.exec sampleExternals) sampleClosed [bobSetsPoolSize]).storage
      (run (World.exec sampleExternals) sampleClosed
        [bobSetsPoolSize, aliceWithdrawsHalf]).storage :=
  (@deposits_frozen _ sampleExternals sampleClosed _ _ [aliceWithdrawsHalf]
    (ok_of_isOk (World.exec sampleExternals) (a := bobSetsPoolSize) (by decide +kernel))
    ⟨Or.inl (by decide +kernel), trivial⟩).1

theorem withdrawal_limits_sample :
    LimitsWithdrawals sampleExternals
      (run (World.exec sampleExternals) (sampleStart 10)
        (sampleDeposits [⟨"usdc", 2000⟩] ++ [.advance 10 1])) :=
  withdrawal_limits (by decide) _

/-- Half of the deposit can be withdrawn in the first half of the window. -/
example : (World.exec sampleExternals
    (run (World.exec sampleExternals) (sampleStart 10)
      (sampleDeposits [⟨"usdc", 2000⟩] ++ [.advance 10 1])) aliceWithdrawsHalf).isOk = true := by
  decide +kernel

end NeutronTge.Auction
