import NeutronTge.Auction.PoolSize

/-!
# NeutronTge.Auction.Payouts

Where the LP tokens go. `Fits` says that what a user has locked is part of what his deposits are
worth, and `HandedOut` that the tokens which went out of the contract are half of what was minted,
the locked ones, and those of the vested users. Together they are no more than what was minted.
-/

namespace NeutronTge.Auction

open CosmWasm Astroport
open Lockdrop (PoolType)

variable {E : Type} {x : Externals E} {w w' : World E}

/-! ### What deposits are worth -/

section Worth

variable {p : PoolType} {user user' : UserInfo} {state state' : State} {s : Storage}

theorem lpOf_congr (hdeposited : user'.deposited p = user.deposited p)
    (htotal : state'.totalDeposited p = state.totalDeposited p)
    (hsize : state'.lpSize p = state.lpSize p) : lpOf p user' state' = lpOf p user state := by
  simp only [lpOf, hdeposited, htotal, hsize]

@[simp] theorem lpOf_default : lpOf p .default state = 0 := by
  simp [lpOf, lpPart]

theorem lpOf_of_lpSize_eq_zero (h : state.lpSize p = 0) : lpOf p user state = 0 := by
  simp [lpOf, lpPart, h]

/-- The parts of all users are no more than the whole. -/
theorem sumOf_lpPart_le (h : Books s) (p : PoolType) :
    (s.sumOf fun user => lpPart (user.deposited p) (s.state.totalDeposited p) (s.state.lpSize p)) ≤
      s.state.lpSize p := by
  have hshares : (s.sumOf fun user => user.deposited p * FixedPoint.fractional /
      s.state.totalDeposited p) ≤ FixedPoint.fractional := by
    calc
      _ ≤ (s.sumOf fun user => user.deposited p * FixedPoint.fractional) /
            s.state.totalDeposited p := Map.sum_div_le _ _ _
      _ = s.state.totalDeposited p * FixedPoint.fractional / s.state.totalDeposited p := by
          rw [Storage.sumOf, Map.sum_mul_right, h.deposited]
          rfl
      _ ≤ FixedPoint.fractional := Nat.div_le_of_le_mul le_rfl
  calc
    _ ≤ (s.sumOf fun user => s.state.lpSize p * (user.deposited p * FixedPoint.fractional /
          s.state.totalDeposited p)) / FixedPoint.fractional := Map.sum_div_le _ _ _
    _ = s.state.lpSize p * (s.sumOf fun user => user.deposited p * FixedPoint.fractional /
          s.state.totalDeposited p) / FixedPoint.fractional := by
        simp only [Storage.sumOf, Nat.mul_comm (s.state.lpSize p), Map.sum_mul_right]
    _ ≤ s.state.lpSize p * FixedPoint.fractional / FixedPoint.fractional := by gcongr
    _ = s.state.lpSize p := Nat.mul_div_cancel _ FixedPoint.fractional_pos

/-- What all users can lock or get vested is at most half of the LP tokens. -/
theorem sumOf_lpOf_le (h : Books s) (p : PoolType) :
    (s.sumOf fun user => lpOf p user s.state) ≤ s.state.lpSize p / 2 :=
  (Map.sum_div_le _ _ _).trans (Nat.div_le_div_right (sumOf_lpPart_le h p))

end Worth

@[simp] theorem lpSize_withLpLocked (p p' : PoolType) (state : State) (n : Nat) :
    (state.withLpLocked p' n).lpSize p = state.lpSize p := by
  cases p <;> cases p' <;> rfl

/-! ### Locked tokens -/

/-- What a user has locked is part of what his deposits are worth, and the sizes are only set
after the windows. -/
structure Fits (w : World E) : Prop where
  books : Books w.storage
  staged : Staged w.storage
  late : ∀ p, w.storage.state.ntrnSize p ≠ 0 → w.storage.config.closing ≤ w.env.time
  locked : ∀ p u, (w.storage.user u).lpLocked p ≤ lpOf p (w.storage.user u) w.storage.state

/-- Before the sizes are set nothing is locked. -/
theorem Fits.unlocked (h : Fits w) (hunset : ∀ p, w.storage.state.ntrnSize p = 0) (p : PoolType)
    (u : Addr) : (w.storage.user u).lpLocked p = 0 := by
  have hsize : w.storage.state.lpSize p = 0 := by
    by_contra hne
    exact (h.staged.lpSize p hne p).ne' (hunset p)
  have hle := h.locked p u
  rwa [lpOf_of_lpSize_eq_zero hsize, Nat.le_zero] at hle

theorem Fits.unset_of_early (h : Fits w) (hearly : w.env.time < w.storage.config.closing)
    (p : PoolType) : w.storage.state.ntrnSize p = 0 := by
  by_contra hne
  exact absurd (h.late p hne) (Nat.not_le_of_lt hearly)

/-- A user's locked amounts, after one of them was written. -/
theorem locked_of_withLpLocked {s s' : Storage} {addr : Addr} {user : UserInfo} {asset : PoolType}
    {total amount : Nat} (huser : s.users.mayLoad addr = some user)
    (hstorage : s' = { s with
      state := s.state.withLpLocked asset total
      users := s.users.save addr (user.withLpLocked asset amount) })
    (hlocked : ∀ p u, (s.user u).lpLocked p ≤ lpOf p (s.user u) s.state)
    (hamount : amount ≤ lpOf asset user s.state) (p : PoolType) (u : Addr) :
    (s'.user u).lpLocked p ≤ lpOf p (s'.user u) s'.state := by
  have hsaved := hlocked p addr
  rw [user_eq_of_load huser] at hsaved
  subst hstorage
  rw [user_save rfl]
  split_ifs with hu
  · rw [lpLocked_withLpLocked, lpOf_congr (deposited_withLpLocked p asset user amount)
      (totalDeposited_withLpLocked p asset s.state total)
      (lpSize_withLpLocked p asset s.state total)]
    split_ifs with hp
    · rw [hp]
      exact hamount
    · exact hsaved
  · rw [lpOf_congr rfl (totalDeposited_withLpLocked p asset s.state total)
      (lpSize_withLpLocked p asset s.state total)]
    exact hlocked p u

/-- The locked amounts, the deposits and the LP sizes are the same. -/
theorem locked_of_same {s s' : Storage} (hsame : SameDeposits s s') (hsizes : SameSizes s s')
    (hsameLocked : ∀ p u, (s'.user u).lpLocked p = (s.user u).lpLocked p)
    (hlocked : ∀ p u, (s.user u).lpLocked p ≤ lpOf p (s.user u) s.state) (p : PoolType)
    (u : Addr) : (s'.user u).lpLocked p ≤ lpOf p (s'.user u) s'.state := by
  rw [hsameLocked, lpOf_congr (hsame.deposited p u) (hsame.totalDeposited p) (hsizes.lpSize p)]
  exact hlocked p u

theorem Fits.locked_execute {info : MessageInfo} {msg : ExecuteMsg} (h : Fits w)
    (hwindow : 0 < w.storage.config.withdrawalWindow) (hexec : w.execute x info msg = .ok w')
    (p : PoolType) (u : Addr) :
    (w'.storage.user u).lpLocked p ≤ lpOf p (w'.storage.user u) w'.storage.state := by
  rcases execute_cases hexec with ⟨msgs, hresponds, hmsg⟩ | ⟨-, w₁, usdcDenom, atomDenom, poolInfo,
    prev, cur, lockdrop, provide₁, provide₂, msgs, hinit⟩
  · have heffect := hresponds.effect
    cases heffect with
    | configure _ _ _ hconf =>
        have huser : w'.storage.user u = w.storage.user u := by rw [Storage.user, hconf.users]; rfl
        rw [huser, hconf.state]
        exact h.locked p u
    -- a deposit or a withdrawal changes the part of every user, but only while the sizes
    -- are unset and nothing is locked
    | deposit _ _ _ _ _ hdeposits =>
        have hearly := hdeposits.early.trans_le w.storage.config.depositsEnd_le_closing
        have hunlocked := h.unlocked (h.unset_of_early hearly) p
        rw [user_save (by rw [hdeposits.storage])]
        split_ifs with hu
        · have hzero := hunlocked info.sender
          refine le_of_eq_of_le ?_ (Nat.zero_le _)
          cases p <;> exact hzero
        · rw [hunlocked]
          exact Nat.zero_le _
    | withdraw _ _ _ _ user _ hwithdraws =>
        have hearly := hwithdraws.not_late (Or.inl hwindow)
        have hunlocked := h.unlocked (h.unset_of_early hearly) p
        rw [user_save (by rw [hwithdraws.storage])]
        split_ifs with hu
        · have hzero := hunlocked info.sender
          rw [user_eq_of_load hwithdraws.user_eq] at hzero
          refine le_of_eq_of_le ?_ (Nat.zero_le _)
          cases p <;> exact hzero
        · rw [hunlocked]
          exact Nat.zero_le _
    | size _ _ _ _ _ _ _ _ _ hsizes =>
        have hunset : ∀ p, w.storage.state.ntrnSize p = 0 := by
          intro p
          cases p with
          | usdc => exact hsizes.unset.1
          | atom => exact hsizes.unset.2
        have huser : w'.storage.user u = w.storage.user u := by rw [hsizes.storage]; rfl
        rw [huser, h.unlocked hunset]
        exact Nat.zero_le _
    | initPool => exact absurd rfl hmsg
    | lock _ _ _ _ _ hlocks =>
        exact locked_of_withLpLocked hlocks.user_eq hlocks.storage h.locked hlocks.locked_le p u
    | unlock asset _ _ user _ hunlocks =>
        have hsaved := h.locked asset info.sender
        rw [user_eq_of_load hunlocks.user_eq] at hsaved
        exact locked_of_withLpLocked hunlocks.user_eq hunlocks.storage h.locked
          ((Nat.sub_le _ _).trans hsaved) p u
    | vest _ _ hvests =>
        refine locked_of_same hvests.sameDeposits (.of_state ?_) hvests.sameLocked h.locked p u
        rw [hvests.storage]
  · have huser : w'.storage.user u = w.storage.user u := by rw [hinit.finalizes.storage]; rfl
    have hle := h.locked p u
    rw [huser, hinit.finalizes.storage]
    cases p <;> exact hle

theorem Fits.exec {a : Action E} (h : Fits w) (hwindow : 0 < w.storage.config.withdrawalWindow)
    (hexec : w.exec x a = .ok w') : Fits w' := by
  obtain ⟨hterms, htime⟩ := World.exec_terms hexec
  have hlate : ∀ p, w.storage.state.ntrnSize p ≠ 0 → w'.storage.config.closing ≤ w'.env.time := by
    intro p hp
    rw [hterms.closing]
    exact (h.late p hp).trans htime
  cases a with
  | execute info msg =>
      refine ⟨h.books.execute hexec, h.staged.exec hexec, fun p hp => ?_,
        h.locked_execute hwindow hexec⟩
      rcases World.execute_sizes hexec with hsame | ⟨-, _, _, _, _, _, _, _, _, hsizes⟩
      · rw [hsame.ntrnSize] at hp
        exact hlate p hp
      · rw [hterms.closing]
        exact hsizes.late.trans htime
  | _ =>
      obtain rfl := Except.ok.inj hexec
      exact ⟨h.books, h.staged, hlate, h.locked⟩

/-! ### Vested users -/

/-- What went to the vesting contract of a pool: the tokens of the vested users. -/
def Storage.vested (s : Storage) (p : PoolType) : Nat :=
  s.sumOf fun user => if user.isVested then vestAmount p user s.state else 0

theorem vestAmount_isVested (p : PoolType) (user : UserInfo) (state : State) (b : Bool) :
    vestAmount p { user with isVested := b } state = vestAmount p user state := by
  cases p <;> rfl

/-- Marking users replaces their summands, stated without a difference. -/
theorem sum_markVested (f : UserInfo → Nat) :
    ∀ {entries : List (Addr × UserInfo)} {users : Map Addr UserInfo},
      (entries.map Prod.fst).Nodup → (∀ e ∈ entries, users.mayLoad e.1 = some e.2) →
      (entries.map fun e => f e.2).sum + (markVested users entries).sum (fun _ user => f user) =
        (entries.map fun e => f { e.2 with isVested := true }).sum +
          users.sum fun _ user => f user := by
  intro entries
  induction entries with
  | nil => exact fun _ _ => rfl
  | cons e entries ih =>
      intro users hnodup hstored
      obtain ⟨hnot, hrest⟩ := List.nodup_cons.mp hnodup
      have hmarked := Map.sum_save_old (hstored e List.mem_cons_self) { e.2 with isVested := true }
        fun _ user => f user
      have hothers : ∀ a ∈ entries,
          (users.save e.1 { e.2 with isVested := true }).mayLoad a.1 = some a.2 := by
        intro a ha
        have hne : a.1 ≠ e.1 := fun heq => hnot (heq ▸ List.mem_map_of_mem ha)
        rw [Map.mayLoad_save_ne hne]
        exact hstored a (List.mem_cons_of_mem _ ha)
      have hloop := ih hrest hothers
      have hunfold : markVested users (e :: entries) =
          markVested (users.save e.1 { e.2 with isVested := true }) entries := rfl
      rw [hunfold, List.map_cons, List.map_cons, List.sum_cons, List.sum_cons]
      simp only at hmarked hloop ⊢
      omega

theorem vested_eq_zero {s : Storage} {p : PoolType} (h : ∀ u, (s.user u).isVested = false) :
    s.vested p = 0 := by
  have hzero : s.vested p = s.users.sum fun _ _ => 0 := by
    unfold Storage.vested Storage.sumOf
    refine Map.sum_congr fun u user huser => ?_
    have hopen := h u
    rw [user_eq_of_load huser] at hopen
    simp [hopen]
  rw [hzero, Map.sum_zero]

/-- A migration adds its batch to what has vested. -/
theorem Vests.vested {s s' : Storage} {env : Env} {msgs : List CosmosMsg}
    {entries : List (Addr × UserInfo)} {poolInfo : PoolInfo}
    (h : Vests s s' env msgs entries poolInfo) (p : PoolType) :
    s'.vested p = s.vested p + batchAmount p s entries := by
  have hmarked := sum_markVested
    (fun user => if user.isVested then vestAmount p user s.state else 0) h.nodup
    fun e he => (h.mem he).1
  have hopen : (entries.map fun e => if e.2.isVested then vestAmount p e.2 s.state else 0).sum =
      0 := by
    rw [List.sum_eq_zero]
    intro n hn
    obtain ⟨e, he, rfl⟩ := List.mem_map.mp hn
    simp [(h.mem he).2]
  have hbatch : (entries.map fun e =>
      if ({ e.2 with isVested := true } : UserInfo).isVested then
        vestAmount p { e.2 with isVested := true } s.state
      else 0).sum = batchAmount p s entries := by
    simp only [if_true, vestAmount_isVested]
    rfl
  have hstorage := h.storage
  subst hstorage
  rw [hopen, hbatch, Nat.zero_add, Nat.add_comm] at hmarked
  exact hmarked

/-- How many users are not vested. -/
def Storage.unvested (s : Storage) : Nat := s.sumOf fun user => if user.isVested then 0 else 1

/-- A migration vests its batch. -/
theorem Vests.unvested {s s' : Storage} {env : Env} {msgs : List CosmosMsg}
    {entries : List (Addr × UserInfo)} {poolInfo : PoolInfo}
    (h : Vests s s' env msgs entries poolInfo) : entries.length + s'.unvested = s.unvested := by
  have hmarked := sum_markVested (fun user => if user.isVested then 0 else 1) h.nodup
    fun e he => (h.mem he).1
  have hopen : (entries.map fun e => if e.2.isVested then 0 else 1).sum = entries.length := by
    have hones : (entries.map fun e => if e.2.isVested then 0 else 1) = entries.map fun _ => 1 :=
      List.map_congr_left fun e he => by simp [(h.mem he).2]
    rw [hones]
    simp
  have hstorage := h.storage
  subst hstorage
  rw [hopen] at hmarked
  simpa [Storage.unvested, Storage.sumOf] using hmarked

/-- What has vested and what is locked is together at most what the deposits are worth. -/
theorem Fits.vested_add_locked_le (h : Fits w) (p : PoolType) :
    w.storage.vested p + w.storage.state.lpLocked p ≤ w.storage.state.lpSize p / 2 := by
  refine le_trans ?_ (sumOf_lpOf_le h.books p)
  rw [h.books.locked]
  unfold Storage.vested Storage.sumOf
  rw [← Map.sum_add]
  refine Map.sum_le_sum fun u user huser => ?_
  have hle := h.locked p u
  rw [user_eq_of_load huser] at hle
  show (if user.isVested then vestAmount p user w.storage.state else 0) + user.lpLocked p ≤
    lpOf p user w.storage.state
  unfold vestAmount
  split_ifs <;> omega

/-! ### Phases -/

/-- The pools are made after the lock window, and nobody is vested before. -/
structure Phased (w : World E) : Prop where
  window : 0 < w.storage.config.withdrawalWindow
  fits : Fits w
  before : w.storage.Unminted → w.storage.state.poolInitTimestamp = 0 ∧
    ∀ u, (w.storage.user u).isVested = false
  after : ¬ w.storage.Unminted → w.storage.config.lockEnd ≤ w.env.time ∧
    w.storage.config.poolInfo ≠ none ∧ w.storage.state.poolInitTimestamp ≠ 0 ∧
    ∀ p, ∃ minted, w.storage.state.lpSharesMinted p = some minted

/-- The messages that take LP tokens. -/
def CosmosMsg.takesLp : CosmosMsg → Bool
  | .lpTransfer .. => true
  | .lpSend .. => true
  | _ => false

/-- Once the pools are made, all that is left is to configure and to migrate users to vesting. -/
theorem Phased.vests {info : MessageInfo} {msg : ExecuteMsg} (h : Phased w)
    (hminted : ¬ w.storage.Unminted) (hexec : w.execute x info msg = .ok w') :
    msg.configures = true ∧ Configures w.storage w'.storage msg ∧ w'.trace = w.trace ∨
      msg = .migrateToVesting ∧ ∃ msgs entries poolInfo,
        Vests w.storage w'.storage w.env msgs entries poolInfo ∧ w'.trace = w.trace ++ msgs := by
  obtain ⟨hlockEnd, -⟩ := h.after hminted
  have hclosing := w.storage.config.closing_le_lockEnd.trans hlockEnd
  rcases execute_cases hexec with ⟨msgs, hresponds, hmsg⟩ | ⟨-, w₁, usdcDenom, atomDenom, poolInfo,
    prev, cur, lockdrop, provide₁, provide₂, msgs, hinit⟩
  · have heffect := hresponds.effect
    cases heffect with
    | configure _ hconfigures hmsgs hconf =>
        refine Or.inl ⟨hconfigures, hconf, ?_⟩
        rw [hresponds.trace, hmsgs, List.append_nil]
    | deposit _ _ _ _ _ hdeposits =>
        have hearly := hdeposits.early
        have := w.storage.config.depositsEnd_le_closing
        omega
    | withdraw _ _ _ _ _ _ hwithdraws =>
        exact absurd (hwithdraws.not_late (Or.inl h.window)) (Nat.not_lt_of_le hclosing)
    | size _ _ _ _ _ _ _ _ _ hsizes =>
        exact absurd hsizes.unset.1 (h.fits.staged.minted (Or.inl hminted) .usdc).ne'
    | initPool => exact absurd rfl hmsg
    | lock _ _ _ _ _ hlocks => exact absurd hlocks.window.early (Nat.not_lt_of_le hlockEnd)
    | unlock _ _ _ _ _ hunlocks => exact absurd hunlocks.window.early (Nat.not_lt_of_le hlockEnd)
    | vest entries poolInfo hvests =>
        exact Or.inr ⟨rfl, msgs, entries, poolInfo, hvests, hresponds.trace⟩
  · exact absurd hinit.starts.unminted.1 hminted

/-- Before the pools are made nobody is vested and no LP token goes out. -/
theorem Phased.unvested {info : MessageInfo} {msg : ExecuteMsg} (h : Phased w)
    (hunminted : w.storage.Unminted) {msgs : List CosmosMsg}
    (hresponds : Responds x w w' info msg msgs) (hmsg : msg ≠ .initPool) :
    (∀ u, (w'.storage.user u).isVested = false) ∧ ∀ m ∈ msgs, m.takesLp = false := by
  obtain ⟨htimestamp, hopen⟩ := h.before hunminted
  have heffect := hresponds.effect
  cases heffect with
  | configure _ _ hmsgs hconf =>
      refine ⟨fun u => ?_, by simp [hmsgs]⟩
      rw [Storage.user, hconf.users]
      exact hopen u
  | deposit _ _ _ _ hmsgs hdeposits =>
      refine ⟨fun u => ?_, by simp [hmsgs]⟩
      rw [user_save (by rw [hdeposits.storage])]
      split_ifs
      · exact hopen info.sender
      · exact hopen u
  | withdraw _ _ _ _ user _ hwithdraws =>
      have huser := hopen info.sender
      rw [user_eq_of_load hwithdraws.user_eq] at huser
      refine ⟨fun u => ?_, ?_⟩
      · rw [user_save (by rw [hwithdraws.storage])]
        split_ifs
        · exact huser
        · exact hopen u
      · rw [hwithdraws.messages]
        unfold withdrawMsg
        split_ifs <;> simp [CosmosMsg.takesLp]
  | size _ _ _ _ _ _ _ _ hmsgs hsizes =>
      refine ⟨fun u => ?_, by simp [hmsgs]⟩
      rw [hsizes.storage]
      exact hopen u
  | initPool => exact absurd rfl hmsg
  | lock asset _ _ user _ hlocks =>
      have huser := hopen info.sender
      rw [user_eq_of_load hlocks.user_eq] at huser
      refine ⟨fun u => ?_, by simp [hlocks.messages, CosmosMsg.takesLp]⟩
      rw [user_save (by rw [hlocks.storage])]
      split_ifs
      · cases asset <;> exact huser
      · exact hopen u
  | unlock asset _ _ user _ hunlocks =>
      have huser := hopen info.sender
      rw [user_eq_of_load hunlocks.user_eq] at huser
      refine ⟨fun u => ?_, by simp [hunlocks.messages, CosmosMsg.takesLp]⟩
      rw [user_save (by rw [hunlocks.storage])]
      split_ifs
      · cases asset <;> exact huser
      · exact hopen u
  -- `MigrateToVesting` asks for the timestamp that `FinalizePoolInitialization` sets
  | vest _ _ hvests => exact absurd htimestamp hvests.initialized

theorem Phased.execute {info : MessageInfo} {msg : ExecuteMsg} (h : Phased w)
    (hexec : w.execute x info msg = .ok w') : Phased w' := by
  obtain ⟨hterms, henv⟩ := World.execute_terms hexec
  have hwindow : 0 < w'.storage.config.withdrawalWindow := by
    rw [hterms.withdrawalWindow]
    exact h.window
  have hfits : Fits w' := Fits.exec (a := .execute info msg) h.fits h.window hexec
  by_cases hunminted : w.storage.Unminted
  · obtain ⟨htimestamp, hopen⟩ := h.before hunminted
    rcases execute_cases hexec with ⟨msgs, hresponds, hmsg⟩ | ⟨-, w₁, usdcDenom, atomDenom,
      poolInfo, prev, cur, lockdrop, provide₁, provide₂, msgs, hinit⟩
    · obtain ⟨husdc, -, htime⟩ := hresponds.minted hmsg
      refine ⟨hwindow, hfits, fun _ => ⟨htime.trans htimestamp, ?_⟩,
        fun hminted => absurd (husdc.trans hunminted) hminted⟩
      exact (h.unvested hunminted hresponds hmsg).1
    · have hstorage := hinit.finalizes.storage
      refine ⟨hwindow, hfits, fun hnot => ?_, fun _ => ⟨?_, ?_, ?_, fun p => ?_⟩⟩
      · rw [hstorage] at hnot
        cases hnot
      · rw [hterms.lockEnd, henv]
        exact hinit.starts.late
      · rw [hstorage]
        exact fun hnone => absurd (hnone.symm.trans hinit.starts.poolInfo_eq) nofun
      · -- the withdrawal window has passed, so the time is not zero
        have hlate := w.storage.config.closing_le_lockEnd.trans hinit.starts.late
        have hclosing : 0 < w.storage.config.closing := Nat.add_pos_right _ h.window
        rw [hstorage]
        exact (hclosing.trans_le hlate).ne'
      · rw [hstorage]
        cases p <;> exact ⟨_, rfl⟩
  · obtain ⟨hlockEnd, hinfo, hinitialized, hboth⟩ := h.after hunminted
    have hkept : w'.storage.state = w.storage.state ∧ w'.storage.config.poolInfo ≠ none := by
      rcases h.vests hunminted hexec with ⟨-, hconf, -⟩ | ⟨-, msgs, entries, poolInfo, hvests, -⟩
      · exact ⟨hconf.state, hconf.poolInfo hinfo⟩
      · rw [hvests.storage]
        exact ⟨rfl, hinfo⟩
    obtain ⟨hstate, hinfo'⟩ := hkept
    refine ⟨hwindow, hfits, fun hnot => ?_, fun _ => ⟨?_, hinfo', ?_, ?_⟩⟩
    · rw [Storage.Unminted, hstate] at hnot
      exact absurd hnot hunminted
    · rw [hterms.lockEnd, henv]
      exact hlockEnd
    · rw [hstate]
      exact hinitialized
    · rw [hstate]
      exact hboth

theorem Phased.exec {a : Action E} (h : Phased w) (hexec : w.exec x a = .ok w') : Phased w' := by
  have hfits := h.fits.exec h.window hexec
  obtain ⟨-, htime⟩ := World.exec_terms hexec
  cases a with
  | execute info msg => exact Phased.execute h hexec
  | _ =>
      obtain rfl := Except.ok.inj hexec
      refine ⟨h.window, hfits, h.before, fun hminted => ?_⟩
      obtain ⟨hlockEnd, hrest⟩ := h.after hminted
      exact ⟨hlockEnd.trans htime, hrest⟩

/-- A world before its first message: an instantiated contract with any configuration. -/
structure Fresh (w : World E) : Prop where
  state : w.storage.state = .default
  users : w.storage.users = ∅
  trace : w.trace = []

theorem Fresh.of_started (h : Started w) : Fresh w := by
  obtain ⟨⟨env, info, msg, hinst, -⟩, htrace⟩ := h
  unfold instantiate at hinst
  simp only [bind_eq_ok, rejectIf_eq_ok, exists_const, Except.ok.injEq] at hinst
  obtain ⟨-, hstorage⟩ := hinst
  exact ⟨by rw [← hstorage]; rfl, by rw [← hstorage]; rfl, htrace⟩

theorem Fresh.user (h : Fresh w) (u : Addr) : w.storage.user u = .default := by
  rw [Storage.user, h.users]
  rfl

theorem Fresh.unminted (h : Fresh w) : w.storage.Unminted := by
  rw [Storage.Unminted, h.state]
  rfl

theorem Fresh.phased (h : Fresh w) (hwindow : 0 < w.storage.config.withdrawalWindow) :
    Phased w where
  window := hwindow
  fits :=
    { books := by
        constructor <;> intro p <;> rw [h.state, Storage.sumOf, h.users] <;> cases p <;> rfl
      staged := by
        constructor
        · intro q hlp
          rw [h.state] at hlp
          cases q <;> exact absurd rfl hlp
        · intro hsome
          rw [h.state] at hsome
          simp [State.default] at hsome
      late := fun p hp => by
        rw [h.state] at hp
        cases p <;> exact absurd rfl hp
      locked := fun p u => by
        rw [h.user, lpLocked_default]
        exact Nat.zero_le _ }
  before _ := ⟨by rw [h.state]; rfl, fun u => by rw [h.user]; rfl⟩
  after hminted := absurd h.unminted hminted

/-! ### Tokens that went out -/

/-- The LP tokens that a message takes. -/
def CosmosMsg.lpOut (token : Addr) : CosmosMsg → Nat
  | .lpTransfer lpToken _ amount => if lpToken = token then amount else 0
  | .lpSend lpToken _ amount _ => if lpToken = token then amount else 0
  | _ => 0

/-- The LP tokens that a sequence of messages takes. -/
def lpSent (token : Addr) (msgs : List CosmosMsg) : Nat := (msgs.map (CosmosMsg.lpOut token)).sum

@[simp] theorem lpSent_nil (token : Addr) : lpSent token [] = 0 := rfl

@[simp] theorem lpSent_cons (token : Addr) (m : CosmosMsg) (msgs : List CosmosMsg) :
    lpSent token (m :: msgs) = m.lpOut token + lpSent token msgs := by
  simp [lpSent]

@[simp] theorem lpSent_append (token : Addr) (msgs msgs' : List CosmosMsg) :
    lpSent token (msgs ++ msgs') = lpSent token msgs + lpSent token msgs' := by
  simp [lpSent]

/-- An amount for each pool, counted for the LP token of the pool. -/
def PoolInfo.byToken (poolInfo : PoolInfo) (token : Addr) (amount : PoolType → Nat) : Nat :=
  (if poolInfo.ntrnUsdcLpTokenAddress = token then amount .usdc else 0) +
    if poolInfo.ntrnAtomLpTokenAddress = token then amount .atom else 0

theorem PoolInfo.byToken_mono {poolInfo : PoolInfo} {token : Addr} {f g : PoolType → Nat}
    (h : ∀ p, f p ≤ g p) : poolInfo.byToken token f ≤ poolInfo.byToken token g := by
  unfold PoolInfo.byToken
  have husdc := h .usdc
  have hatom := h .atom
  split_ifs <;> omega

theorem PoolInfo.byToken_add {poolInfo : PoolInfo} {token : Addr} {f g : PoolType → Nat} :
    poolInfo.byToken token f + poolInfo.byToken token g =
      poolInfo.byToken token fun p => f p + g p := by
  simp only [PoolInfo.byToken]
  split_ifs <;> omega

/-- What went out for a pool: half of the minted tokens, the locked ones and the vested ones. -/
def Storage.handedOut (s : Storage) (p : PoolType) : Nat :=
  (s.state.lpSharesMinted p).getD 0 / 2 + s.state.lpLocked p + s.vested p

theorem lpSent_lockedLpMsg {token lockdrop lpToken : Addr} {p : PoolType}
    {amount incentivesShare : Nat} :
    lpSent token (lockedLpMsg lockdrop lpToken p amount incentivesShare) =
      if lpToken = token then amount else 0 := by
  unfold lockedLpMsg
  split_ifs with hzero <;> simp_all [CosmosMsg.lpOut]

theorem lpSent_vestingMsg {token lpToken vesting : Addr} {amount : Nat}
    {accounts : List Vesting.VestingAccount} :
    lpSent token (vestingMsg lpToken vesting amount accounts) =
      if lpToken = token then amount else 0 := by
  unfold vestingMsg
  split_ifs with hzero <;> simp_all [CosmosMsg.lpOut]

/-- The callback of `InitPool` sends half of the minted tokens and the locked ones. -/
theorem Finalizes.lpSent {q : Querier} {s s' : Storage} {env : Env} {msgs : List CosmosMsg}
    {prev cur : PoolBalance} {lockdrop : Addr} {poolInfo : PoolInfo}
    (h : Finalizes q s s' env msgs prev lockdrop poolInfo cur) (token : Addr) :
    lpSent token msgs = poolInfo.byToken token fun p =>
      (s'.state.lpSharesMinted p).getD 0 / 2 + s'.state.lpLocked p := by
  rw [h.messages, h.storage]
  simp only [lpSent_append, lpSent_cons, lpSent_nil, lpSent_lockedLpMsg, CosmosMsg.lpOut,
    PoolInfo.byToken, State.lpSharesMinted, State.lpLocked, Option.getD_some]
  split_ifs <;> omega

theorem Vests.lpSent {s s' : Storage} {env : Env} {msgs : List CosmosMsg}
    {entries : List (Addr × UserInfo)} {poolInfo : PoolInfo}
    (h : Vests s s' env msgs entries poolInfo) (token : Addr) :
    lpSent token msgs = poolInfo.byToken token fun p => batchAmount p s entries := by
  rw [h.messages, lpSent_append, lpSent_vestingMsg, lpSent_vestingMsg]
  exact Nat.add_comm _ _

theorem lpOut_of_not_takesLp {token : Addr} {m : CosmosMsg} (h : m.takesLp = false) :
    m.lpOut token = 0 := by
  cases m with
  | lpTransfer => cases h
  | lpSend => cases h
  | _ => rfl

theorem lpSent_of_not_takesLp {token : Addr} {msgs : List CosmosMsg}
    (h : ∀ m ∈ msgs, m.takesLp = false) : lpSent token msgs = 0 := by
  unfold lpSent
  rw [List.sum_eq_zero]
  intro n hn
  obtain ⟨m, hm, rfl⟩ := List.mem_map.mp hn
  exact lpOut_of_not_takesLp (h m hm)

/-- `InitPool` sends half of the minted tokens and the locked ones. -/
theorem InitPools.lpSent {w₁ : World E} {info : MessageInfo} {usdcDenom atomDenom : String}
    {poolInfo : PoolInfo} {prev cur : PoolBalance} {lockdrop : Addr}
    {provide₁ provide₂ : CosmosMsg} {msgs : List CosmosMsg}
    (hinit : InitPools x w w₁ w' info usdcDenom atomDenom poolInfo prev cur lockdrop provide₁
      provide₂ msgs) (token : Addr) :
    lpSent token w'.trace = lpSent token w.trace + poolInfo.byToken token fun p =>
      (w'.storage.state.lpSharesMinted p).getD 0 / 2 + w'.storage.state.lpLocked p := by
  have hprovides := hinit.starts.messages
  simp only [List.cons.injEq] at hprovides
  obtain ⟨hprovide₁, hprovide₂, -⟩ := hprovides
  have hnone₁ : provide₁.lpOut token = 0 := by
    rw [hprovide₁]
    rfl
  have hnone₂ : provide₂.lpOut token = 0 := by
    rw [hprovide₂]
    rfl
  rw [hinit.trace, lpSent_append, lpSent_cons, lpSent_cons, hinit.finalizes.lpSent, hnone₁, hnone₂]
  omega

theorem Vests.handedOut {s s' : Storage} {env : Env} {msgs : List CosmosMsg}
    {entries : List (Addr × UserInfo)} {poolInfo : PoolInfo}
    (h : Vests s s' env msgs entries poolInfo) (p : PoolType) :
    s'.handedOut p = s.handedOut p + batchAmount p s entries := by
  have hstate : s'.state = s.state := by rw [h.storage]
  simp only [Storage.handedOut, hstate, h.vested]
  omega

/-! ### The tokens of a run -/

/-- The configuration is not changed. -/
def Fixed (_ : World E) : Action E → Prop
  | .execute _ msg => msg.configures = false
  | _ => True

/-- The pairs mint at least the LP sizes for the liquidity of `InitPool`. -/
def MintsEnough (x : Externals E) (w : World E) : Action E → Prop
  | .execute info .initPool => ∀ w', w.execute x info .initPool = .ok w' →
      ∀ p minted, w'.storage.state.lpSharesMinted p = some minted →
        w.storage.state.lpSize p ≤ minted
  | _ => True

/-- The tokens that went out, before and after the pools are made. -/
structure HandedOut (w : World E) : Prop where
  unminted : w.storage.Unminted → ∀ token, lpSent token w.trace = 0
  minted : ¬ w.storage.Unminted → ∃ poolInfo, w.storage.config.poolInfo = some poolInfo ∧
    ∀ token, lpSent token w.trace = poolInfo.byToken token w.storage.handedOut

theorem HandedOut.execute {info : MessageInfo} {msg : ExecuteMsg} (h : HandedOut w)
    (hphased : Phased w) (hfixed : msg.configures = false)
    (hexec : w.execute x info msg = .ok w') : HandedOut w' := by
  by_cases hunminted : w.storage.Unminted
  · have hnone := h.unminted hunminted
    obtain ⟨-, hopen⟩ := hphased.before hunminted
    rcases execute_cases hexec with ⟨msgs, hresponds, hmsg⟩ | ⟨hmsg, w₁, usdcDenom, atomDenom,
      poolInfo, prev, cur, lockdrop, provide₁, provide₂, msgs, hinit⟩
    · obtain ⟨husdc, -, -⟩ := hresponds.minted hmsg
      obtain ⟨-, hnoLp⟩ := hphased.unvested hunminted hresponds hmsg
      refine ⟨fun _ token => ?_, fun hminted => absurd (husdc.trans hunminted) hminted⟩
      rw [hresponds.trace, lpSent_append, hnone, lpSent_of_not_takesLp hnoLp]
    -- the pools are made: half goes to the reserve, the locked tokens to the lockdrop, and
    -- nobody is vested yet
    · have hstorage := hinit.finalizes.storage
      refine ⟨fun hnot => ?_, fun _ => ⟨poolInfo, ?_, fun token => ?_⟩⟩
      · rw [hstorage] at hnot
        cases hnot
      · rw [hstorage]
        exact hinit.starts.poolInfo_eq
      · have hnobody : ∀ u, (w'.storage.user u).isVested = false := by
          intro u
          rw [hstorage]
          exact hopen u
        have hhanded : w'.storage.handedOut = fun p =>
            (w'.storage.state.lpSharesMinted p).getD 0 / 2 + w'.storage.state.lpLocked p := by
          funext p
          rw [Storage.handedOut, vested_eq_zero hnobody, Nat.add_zero]
        rw [hinit.lpSent, hnone, Nat.zero_add, hhanded]
  · rcases hphased.vests hunminted hexec with ⟨hconf, -⟩ | ⟨-, msgs, entries, poolInfo, hvests,
      htrace⟩
    · rw [hconf] at hfixed
      cases hfixed
    -- a batch is vested: its amounts go out
    · obtain ⟨poolInfo', hinfo, hsent⟩ := h.minted hunminted
      have hstorage := hvests.storage
      obtain rfl : poolInfo' = poolInfo :=
        Option.some.inj (hinfo.symm.trans hvests.poolInfo_eq)
      have hhanded : w'.storage.handedOut = fun p =>
          w.storage.handedOut p + batchAmount p w.storage entries := by
        funext p
        exact hvests.handedOut p
      refine ⟨fun hnot => ?_, fun _ => ⟨poolInfo', ?_, fun token => ?_⟩⟩
      · rw [hstorage] at hnot
        exact absurd hnot hunminted
      · rw [hstorage]
        exact hinfo
      · rw [htrace, lpSent_append, hsent, hvests.lpSent, PoolInfo.byToken_add, hhanded]

/-- Enough was minted for the LP sizes. -/
def Storage.Enough (s : Storage) : Prop :=
  ∀ p minted, s.state.lpSharesMinted p = some minted → s.state.lpSize p ≤ minted

theorem enough_execute {info : MessageInfo} {msg : ExecuteMsg} (h : w.storage.Enough)
    (hmints : MintsEnough x w (.execute info msg)) (hexec : w.execute x info msg = .ok w') :
    w'.storage.Enough := by
  intro p minted hsome
  rcases execute_cases hexec with ⟨msgs, hresponds, hmsg⟩ | ⟨hmsg, w₁, usdcDenom, atomDenom,
    poolInfo, prev, cur, lockdrop, provide₁, provide₂, msgs, hinit⟩
  · obtain ⟨husdc, hatom, -⟩ := hresponds.minted hmsg
    have hbefore : w.storage.state.lpSharesMinted p = some minted := by
      cases p with
      | usdc => exact husdc.symm.trans hsome
      | atom => exact hatom.symm.trans hsome
    rcases World.execute_sizes hexec with hsame | ⟨-, _, _, _, _, _, _, _, _, hsizes⟩
    · rw [hsame.lpSize]
      exact h p minted hbefore
    · cases p with
      | usdc => exact absurd (hsizes.unminted.1.symm.trans hbefore) nofun
      | atom => exact absurd (hsizes.unminted.2.symm.trans hbefore) nofun
  · obtain rfl := hmsg
    have henough := hmints w' hexec p minted hsome
    rw [hinit.finalizes.storage]
    cases p <;> exact henough

/-- What holds of the LP tokens in every state of a run. -/
structure LpInvariant (w : World E) : Prop where
  phased : Phased w
  handedOut : HandedOut w
  enough : w.storage.Enough

theorem LpInvariant.exec {a : Action E} (h : LpInvariant w) (hfixed : Fixed w a)
    (hmints : MintsEnough x w a) (hexec : w.exec x a = .ok w') : LpInvariant w' := by
  have hphased := h.phased.exec hexec
  cases a with
  | execute info msg =>
      exact ⟨hphased, h.handedOut.execute h.phased hfixed hexec,
        enough_execute h.enough hmints hexec⟩
  | _ =>
      obtain rfl := Except.ok.inj hexec
      exact ⟨hphased, ⟨h.handedOut.unminted, h.handedOut.minted⟩, h.enough⟩

theorem Fresh.lpInvariant (h : Fresh w) (hwindow : 0 < w.storage.config.withdrawalWindow) :
    LpInvariant w where
  phased := h.phased hwindow
  handedOut := by
    refine ⟨fun _ token => ?_, fun hminted => absurd h.unminted hminted⟩
    rw [h.trace]
    rfl
  enough p minted hsome := by
    rw [h.state] at hsome
    cases p <;> cases hsome

/-- The LP tokens that were minted, for an LP token. -/
def Storage.mintedOf (s : Storage) (token : Addr) : Nat :=
  s.config.poolInfo.elim 0 fun poolInfo =>
    poolInfo.byToken token fun p => (s.state.lpSharesMinted p).getD 0

/-- What went out for a pool is at most what was minted. -/
theorem LpInvariant.handedOut_le (h : LpInvariant w) (hminted : ¬ w.storage.Unminted)
    (p : PoolType) : w.storage.handedOut p ≤ (w.storage.state.lpSharesMinted p).getD 0 := by
  obtain ⟨-, -, -, hboth⟩ := h.phased.after hminted
  obtain ⟨minted, hsome⟩ := hboth p
  have henough := h.enough p minted hsome
  have hhalf := h.phased.fits.vested_add_locked_le p
  rw [Storage.handedOut, hsome, Option.getD_some]
  omega

/-- The LP token of a pool. -/
def PoolInfo.lpToken (poolInfo : PoolInfo) : PoolType → Addr
  | .usdc => poolInfo.ntrnUsdcLpTokenAddress
  | .atom => poolInfo.ntrnAtomLpTokenAddress

/-- Liquidity is provided to both pools, and what the auction's balances of the two LP tokens grow
by in the meantime is recorded as minted. -/
structure MintsBetween (x : Externals E) (e e' : E) (s : Storage) (poolInfo : PoolInfo) : Prop where
  configured : s.config.poolInfo = some poolInfo
  provided : ∃ usdcAssets usdcFunds atomAssets atomFunds,
    [.provideLiquidity poolInfo.ntrnUsdcPoolAddress usdcAssets usdcFunds,
      .provideLiquidity poolInfo.ntrnAtomPoolAddress atomAssets atomFunds].foldlM x.exec e = .ok e'
  grown : ∀ p, ∃ before after, x.tokenBalance e (poolInfo.lpToken p) = .ok before ∧
    x.tokenBalance e' (poolInfo.lpToken p) = .ok after ∧ before ≤ after ∧
    s.state.lpSharesMinted p = some (after - before)

theorem getLpBalances_ok {q : Querier} {poolInfo : PoolInfo} {balance : PoolBalance}
    (h : getLpBalances q poolInfo = .ok balance) :
    q.tokenBalance poolInfo.ntrnUsdcLpTokenAddress = .ok balance.usdc ∧
      q.tokenBalance poolInfo.ntrnAtomLpTokenAddress = .ok balance.atom := by
  simp only [getLpBalances, bind_eq_ok, Except.ok.injEq] at h
  obtain ⟨usdc, husdc, atom, hatom, rfl⟩ := h
  exact ⟨husdc, hatom⟩

theorem InitPools.mintsBetween {w₁ : World E} {info : MessageInfo} {usdcDenom atomDenom : String}
    {poolInfo : PoolInfo} {prev cur : PoolBalance} {lockdrop : Addr}
    {provide₁ provide₂ : CosmosMsg} {msgs : List CosmosMsg}
    (hinit : InitPools x w w₁ w' info usdcDenom atomDenom poolInfo prev cur lockdrop provide₁
      provide₂ msgs) : MintsBetween x w.ext w₁.ext w'.storage poolInfo := by
  have hprovides := hinit.starts.messages
  simp only [List.cons.injEq] at hprovides
  obtain ⟨hprovide₁, hprovide₂, -⟩ := hprovides
  obtain ⟨hprevUsdc, hprevAtom⟩ := getLpBalances_ok hinit.starts.prev_eq
  obtain ⟨hcurUsdc, hcurAtom⟩ := getLpBalances_ok hinit.finalizes.cur_eq
  constructor
  · rw [hinit.finalizes.storage]
    exact hinit.starts.poolInfo_eq
  · have hexec := hinit.exec₁
    rw [hprovide₁, hprovide₂] at hexec
    exact ⟨_, _, _, _, hexec⟩
  · intro p
    rw [hinit.finalizes.storage]
    cases p with
    | usdc => exact ⟨prev.usdc, cur.usdc, hprevUsdc, hcurUsdc, hinit.finalizes.usdc_le, rfl⟩
    | atom => exact ⟨prev.atom, cur.atom, hprevAtom, hcurAtom, hinit.finalizes.atom_le, rfl⟩

/-- The pools are made by `InitPool` only. -/
theorem World.exec_mints {a : Action E} (hunminted : w.storage.Unminted)
    (hminted : ¬ w'.storage.Unminted) (hexec : w.exec x a = .ok w') :
    ∃ info poolInfo e, a = .execute info .initPool ∧
      MintsBetween x w.ext e w'.storage poolInfo := by
  cases a with
  | execute info msg =>
      rcases execute_cases hexec with ⟨msgs, hresponds, hmsg⟩ | ⟨rfl, w₁, usdcDenom, atomDenom,
        poolInfo, prev, cur, lockdrop, provide₁, provide₂, msgs, hinit⟩
      · obtain ⟨husdc, -, -⟩ := hresponds.minted hmsg
        exact absurd (husdc.trans hunminted) hminted
      · exact ⟨info, poolInfo, w₁.ext, rfl, hinit.mintsBetween⟩
  | _ =>
      obtain rfl := Except.ok.inj hexec
      exact absurd hunminted hminted

/-- What was recorded as minted stays recorded. -/
theorem MintsBetween.exec {e e' : E} {poolInfo : PoolInfo} {a : Action E}
    (h : MintsBetween x e e' w.storage poolInfo) (hphased : Phased w)
    (hminted : ¬ w.storage.Unminted) (hfixed : Fixed w a) (hexec : w.exec x a = .ok w') :
    MintsBetween x e e' w'.storage poolInfo ∧ ¬ w'.storage.Unminted := by
  cases a with
  | execute info msg =>
      rcases hphased.vests hminted hexec with ⟨hconf, -⟩ | ⟨-, msgs, entries, poolInfo', hvests, -⟩
      · have hno : msg.configures = false := hfixed
        rw [hconf] at hno
        cases hno
      · rw [hvests.storage]
        exact ⟨⟨h.configured, h.provided, h.grown⟩, hminted⟩
  | _ =>
      obtain rfl := Except.ok.inj hexec
      exact ⟨h, hminted⟩

/-- The LP tokens never run out in a run. -/
structure LpCovered (x : Externals E) (w₀ : World E) (as : List (Action E)) (w : World E) :
    Prop where
  /-- Not more goes out than was minted. -/
  sent : ∀ token, lpSent token w.trace ≤ w.storage.mintedOf token
  /-- What was minted is what the balances grew by while `InitPool` provided the liquidity. -/
  minted : ¬ w.storage.Unminted → ∃ before info after poolInfo e,
    as = before ++ .execute info .initPool :: after ∧
      MintsBetween x (run (World.exec x) w₀ before).ext e w.storage poolInfo
  /-- A user has locked at most what his deposits are worth. -/
  locked : ∀ {u : Addr} {user : UserInfo} {lp : UserLpInfo},
    w.storage.users.mayLoad u = some user → getUserLpInfo user w.storage.state = .ok lp →
    ∀ p, user.lpLocked p ≤ lp.of p
  /-- The subtraction of `LockLp` and `MigrateToVesting` does not underflow. -/
  rest : ∀ {u : Addr} {user : UserInfo} {lp : UserLpInfo},
    w.storage.users.mayLoad u = some user → getUserLpInfo user w.storage.state = .ok lp →
    ∀ p, Uint.sub (lp.of p) (user.lpLocked p) = .ok (lp.of p - user.lpLocked p)

theorem mintsBetween_of_run {w₀ : World E} (hfresh : Fresh w₀)
    (hwindow : 0 < w₀.storage.config.withdrawalWindow) {as : List (Action E)}
    (halong : Along (World.exec x) Fixed w₀ as)
    (hminted : ¬ (run (World.exec x) w₀ as).storage.Unminted) :
    ∃ before info after poolInfo e, as = before ++ .execute info .initPool :: after ∧
      MintsBetween x (run (World.exec x) w₀ before).ext e (run (World.exec x) w₀ as).storage
        poolInfo := by
  obtain ⟨before, a, after, w', rfl, hbefore, hexec, hfirst, hafter⟩ :=
    run_first (P := fun w : World E => ¬ w.storage.Unminted) (not_not.mpr hfresh.unminted) hminted
  obtain ⟨info, poolInfo, e, rfl, hmints⟩ :=
    World.exec_mints (not_not.mp hbefore) hfirst hexec
  have hphased : Phased w' := by
    have hstart : Phased (run (World.exec x) w₀ before) :=
      run_invariant Phased (fun _ _ _ ht hexec => ht.exec hexec) (hfresh.phased hwindow)
    exact hstart.exec hexec
  obtain ⟨-, -, hrest⟩ := (along_append (World.exec x)).mp halong
  rw [commit_of_ok _ hexec] at hrest
  refine ⟨before, info, after, poolInfo, e, rfl, ?_⟩
  rw [hafter]
  have hall := run_invariant_along
    (fun w => Phased w ∧ MintsBetween x (run (World.exec x) w₀ before).ext e w.storage poolInfo ∧
      ¬ w.storage.Unminted)
    (fun v b v' hv hb hok => ⟨hv.1.exec hok, hv.2.1.exec hv.1 hv.2.2 hb hok⟩)
    ⟨hphased, hmints, hfirst⟩ hrest
  exact hall.2.1

/-- The auction never hands out more LP tokens than it minted. -/
theorem lp_covered {w₀ : World E} (hfresh : Fresh w₀)
    (hwindow : 0 < w₀.storage.config.withdrawalWindow) {as : List (Action E)}
    (halong : Along (World.exec x) (fun w a => Fixed w a ∧ MintsEnough x w a) w₀ as) :
    LpCovered x w₀ as (run (World.exec x) w₀ as) := by
  have hinv : LpInvariant (run (World.exec x) w₀ as) :=
    run_invariant_along LpInvariant (fun _ _ _ ht ha hexec => ht.exec ha.1 ha.2 hexec)
      (hfresh.lpInvariant hwindow) halong
  have hprovided := mintsBetween_of_run hfresh hwindow ((along_and (World.exec x)).mp halong).1
  generalize run (World.exec x) w₀ as = w at hinv hprovided
  have hlocked : ∀ {u : Addr} {user : UserInfo} {lp : UserLpInfo},
      w.storage.users.mayLoad u = some user → getUserLpInfo user w.storage.state = .ok lp →
      ∀ p, user.lpLocked p ≤ lp.of p := by
    intro u user lp huser hlp p
    have hle := hinv.phased.fits.locked p u
    rwa [user_eq_of_load huser, ← getUserLpInfo_ok hlp] at hle
  refine ⟨fun token => ?_, hprovided, hlocked, fun huser hlp p =>
    Uint.sub_eq_ok.mpr ⟨hlocked huser hlp p, rfl⟩⟩
  by_cases hunminted : w.storage.Unminted
  · rw [hinv.handedOut.unminted hunminted]
    exact Nat.zero_le _
  · obtain ⟨poolInfo, hinfo, hsent⟩ := hinv.handedOut.minted hunminted
    rw [hsent, Storage.mintedOf, hinfo]
    exact PoolInfo.byToken_mono (hinv.handedOut_le hunminted)

/-! ### A sample run -/

/-- The sample auction once its tokens are set. -/
def sampleReady : World SampleExt :=
  run (World.exec sampleExternals) (sampleStart 10)
    [.execute ⟨"manager", []⟩ (.setTokenInfo (some "usdc") (some "atom") (some samplePools))]

theorem sampleReady_fresh : Fresh sampleReady := ⟨rfl, rfl, rfl⟩

/-- alice deposits both assets and locks some of her USDC tokens. -/
def aliceLocks : List (Action SampleExt) :=
  [.execute ⟨"alice", [⟨"atom", 2000⟩, ⟨"usdc", 2000⟩]⟩ .deposit, .donate [⟨"untrn", 4000⟩],
    .advance 20 1, bobSetsPoolSize, .execute ⟨"alice", []⟩ (.lockLp .usdc 200 3), .advance 10 1]

/-- Anybody may make the pools. -/
def bobInitsPool : Action SampleExt := .execute ⟨"bob", []⟩ .initPool

/-- Anybody may hand the next users over. -/
def bobMigrates : Action SampleExt := .execute ⟨"bob", []⟩ .migrateToVesting

theorem sample_mintsEnough :
    MintsEnough sampleExternals (run (World.exec sampleExternals) sampleReady aliceLocks)
      bobInitsPool := by
  intro w' h p minted hsome
  have hok := ok_of_isOk (World.exec sampleExternals)
    (s := run (World.exec sampleExternals) sampleReady aliceLocks) (a := bobInitsPool)
    (by decide +kernel)
  obtain rfl := Except.ok.inj (hok.symm.trans h)
  have hminted : ∀ p, (commit (World.exec sampleExternals)
      (run (World.exec sampleExternals) sampleReady aliceLocks)
      bobInitsPool).storage.state.lpSharesMinted p = some 1000 := by
    intro p
    cases p <;> decide +kernel
  rw [hminted] at hsome
  obtain rfl := Option.some.inj hsome
  cases p <;> decide +kernel

theorem sample_along :
    Along (World.exec sampleExternals)
      (fun w a => Fixed w a ∧ MintsEnough sampleExternals w a) sampleReady
      (aliceLocks ++ [bobInitsPool, bobMigrates]) := by
  refine (along_append (World.exec sampleExternals)).mpr ⟨?_, ?_⟩
  · exact ⟨⟨rfl, trivial⟩, ⟨trivial, trivial⟩, ⟨trivial, trivial⟩, ⟨rfl, trivial⟩, ⟨rfl, trivial⟩,
      ⟨trivial, trivial⟩, trivial⟩
  · exact ⟨⟨rfl, sample_mintsEnough⟩, ⟨rfl, trivial⟩, trivial⟩

theorem lp_covered_sample :
    LpCovered sampleExternals sampleReady (aliceLocks ++ [bobInitsPool, bobMigrates])
      (run (World.exec sampleExternals) sampleReady
        (aliceLocks ++ [bobInitsPool, bobMigrates])) :=
  lp_covered sampleReady_fresh (by decide) sample_along

/-- All 1000 USDC tokens are out: 500 to the reserve, 200 locked and 300 vested. -/
example : lpSent "usdc_lp" (run (World.exec sampleExternals) sampleReady
    (aliceLocks ++ [bobInitsPool, bobMigrates])).trace = 1000 := by
  decide +kernel

end NeutronTge.Auction
