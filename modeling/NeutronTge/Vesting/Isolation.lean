import NeutronTge.CosmWasm.Isolation
import NeutronTge.Vesting.Authority

/-!
# NeutronTge.Vesting.Isolation

What somebody without power can do in a vesting contract: nothing that the others notice. The
run of a contract is compared with the same run without the transactions of some `outsider`s,
whom nobody gives power.

The two contracts agree on everything but the accounts of the outsiders and the released
total (`SameFor`). Every handler has one lemma: what it does in one of them it can do in the
other. A claim needs the books of both, since the released total and the balance, which do
differ, must never be what makes it fail.
-/

namespace NeutronTge.Vesting

open CosmWasm Astroport

variable {outsider : Addr → Prop} {s s' t : Storage} {env : Env} {info : MessageInfo}
  {msgs : List TransferMsg}

/-! ### The same contract for everybody else -/

variable [DecidablePred outsider]

variable (outsider) in
/-- Two storages that differ in the accounts of outsiders and the released total only. -/
structure Storage.SameFor (s t : Storage) : Prop extends SameAuthority s t where
  granted : (t.vestingState.mayLoad ()).map VestingState.totalGranted =
    (s.vestingState.mayLoad ()).map VestingState.totalGranted
  accounts : SnapshotMap.AgreeOn (fun a => ¬ outsider a) s.vestingInfo t.vestingInfo

namespace Storage.SameFor

theorem refl (s : Storage) : s.SameFor outsider s := ⟨.refl s, rfl, .refl _⟩

theorem symm (h : s.SameFor outsider t) : t.SameFor outsider s where
  config := h.config.symm
  vestingManagers := h.vestingManagers.symm
  ownershipProposal := h.ownershipProposal.symm
  granted := h.granted.symm
  accounts := h.accounts.symm

theorem trans {u : Storage} (h : s.SameFor outsider t) (h' : t.SameFor outsider u) :
    s.SameFor outsider u where
  toSameAuthority := h.toSameAuthority.trans h'.toSameAuthority
  granted := h'.granted.trans h.granted
  accounts := h.accounts.trans h'.accounts

theorem saveInfo_inside (h : s.SameFor outsider t) (a : Addr) (i : VestingInfo)
    (height : Nat) : (s.saveInfo a i height).SameFor outsider (t.saveInfo a i height) where
  toSameAuthority := ⟨h.config, h.vestingManagers, h.ownershipProposal⟩
  granted := h.granted
  accounts := by
    unfold Storage.saveInfo
    rw [h.config]
    dsimp only
    split
    · exact h.accounts.save a i height
    · refine ⟨fun k hk => ?_, h.accounts.changelog⟩
      have hload := h.accounts.mayLoad k hk
      unfold SnapshotMap.mayLoad at hload ⊢
      rw [Map.mayLoad_save_eq, Map.mayLoad_save_eq, hload]

/-- The account of an outsider is not looked at. -/
theorem saveInfo_outside {a : Addr} (ha : outsider a) (s : Storage) (i : VestingInfo)
    (height : Nat) : s.SameFor outsider (s.saveInfo a i height) where
  toSameAuthority := ⟨rfl, rfl, rfl⟩
  granted := rfl
  accounts := by
    unfold Storage.saveInfo
    dsimp only
    split
    · exact SnapshotMap.AgreeOn.save_outside (P := fun b => ¬ outsider b) (not_not.mpr ha) _ i
        height
    · refine ⟨fun k hk => ?_, rfl⟩
      refine Map.mayLoad_save_ne ?_ _ i
      rintro rfl
      exact hk ha

theorem saveInfo (h : s.SameFor outsider t) (a : Addr) {i j : VestingInfo}
    (hij : ¬ outsider a → j = i) (height : Nat) :
    (s.saveInfo a i height).SameFor outsider (t.saveInfo a j height) := by
  by_cases ha : outsider a
  · exact ((saveInfo_outside ha s i height).symm.trans h).trans (saveInfo_outside ha t j height)
  · rw [hij ha]
    exact h.saveInfo_inside a i height

theorem removeInfo (h : s.SameFor outsider t) (a : Addr) (height : Nat) :
    (s.removeInfo a height).SameFor outsider (t.removeInfo a height) where
  toSameAuthority := ⟨h.config, h.vestingManagers, h.ownershipProposal⟩
  granted := h.granted
  accounts := by
    unfold Storage.removeInfo
    rw [h.config]
    dsimp only
    split
    · exact h.accounts.remove a height
    · refine ⟨fun k hk => ?_, h.accounts.changelog⟩
      have hload := h.accounts.mayLoad k hk
      unfold SnapshotMap.mayLoad at hload ⊢
      rw [Map.mayLoad_remove_eq, Map.mayLoad_remove_eq, hload]

/-- The totals are there in both storages or in none. -/
theorem state (h : s.SameFor outsider t) {state : VestingState}
    (hstate : s.vestingState.mayLoad () = some state) :
    ∃ state', t.vestingState.mayLoad () = some state' ∧
      state'.totalGranted = state.totalGranted := by
  have hgranted := h.granted
  rw [hstate, Option.map_some] at hgranted
  exact Option.map_eq_some_iff.mp hgranted

theorem totalGranted (h : s.SameFor outsider t) :
    t.totals.totalGranted = s.totals.totalGranted := by
  have hgranted := h.granted
  unfold Storage.totals
  cases hs : s.vestingState.mayLoad () <;> cases ht : t.vestingState.mayLoad () <;>
    simp_all

theorem saveState (h : s.SameFor outsider t) {v u : VestingState}
    (hgranted : u.totalGranted = v.totalGranted) (height : Nat) :
    (s.saveState v height).SameFor outsider (t.saveState u height) where
  toSameAuthority := ⟨h.config, h.vestingManagers, h.ownershipProposal⟩
  granted := by
    rw [saveState_mayLoad, saveState_mayLoad, Option.map_some, Option.map_some, hgranted]
  accounts := h.accounts

/-! ### What the handlers do in both -/

theorem isSenderWhitelisted_eq (h : s.SameFor outsider t) (a : Addr) :
    isSenderWhitelisted t a = isSenderWhitelisted s a := by
  unfold isSenderWhitelisted
  rw [h.config, h.vestingManagers]

/-- A claim of somebody who is not an outsider. The released total is within its bound, since
the account is one of those it counts. -/
theorem claim (h : s.SameFor outsider t) (hinv : t.Inv env.time)
    (hsender : ¬ outsider info.sender) {recipient : Option Addr} {amount : Option Nat}
    (hclaim : Vesting.claim s env info recipient amount = .ok (s', msgs)) :
    ∃ t', Vesting.claim t env info recipient amount = .ok (t', msgs) ∧
      s'.SameFor outsider t' := by
  unfold Vesting.claim at hclaim ⊢
  simp only [bind_eq_ok, mapError_eq_ok, exists_const, rejectIf_eq_ok, getVestingToken,
    okOr_eq_ok, SnapshotMap.load, Map.load_eq_ok] at hclaim
  obtain ⟨token, htoken, account, hload, available, havailable, henough, hclaim⟩ := hclaim
  have htoken' : t.config.vestingToken = some token := by rw [h.config, htoken]
  have hload' : t.vestingInfo.mayLoad info.sender = some account := by
    rw [h.accounts.mayLoad _ hsender]
    exact hload
  -- what is available of the account is part of what it has not claimed
  have hgiven : amount.getD available ≤ account.rest := by
    have hearned := hinv.earned _ _ hload'
    have hsound := hinv.sound hload'
    obtain rfl := Except.ok.inj
      (havailable.symm.trans (hearned.available hsound.bounded (le_refl _)))
    have hvested := vested_le_granted hearned.valid env.time
    unfold VestingInfo.rest
    cases amount with
    | none =>
        rw [Option.getD_none]
        omega
    | some a =>
        have hle : ¬ vested env.time account.schedules - account.releasedAmount < a :=
          fun hlt => henough ⟨a, rfl, hlt⟩
        rw [Option.getD_some]
        omega
  split at hclaim
  · rename_i hzero
    simp only [Except.ok.injEq, Prod.mk.injEq] at hclaim
    obtain ⟨rfl, rfl⟩ := hclaim
    refine ⟨t, ?_, h⟩
    simp only [bind_eq_ok, mapError_eq_ok, exists_const, rejectIf_eq_ok, getVestingToken,
      okOr_eq_ok, SnapshotMap.load, Map.load_eq_ok]
    refine ⟨token, htoken', account, hload', available, havailable, henough, ?_⟩
    rw [if_pos hzero]
  · rename_i hzero
    simp only [bind_eq_ok, mapError_eq_ok, okOr_eq_ok, Uint.checkedAdd_eq_ok,
      Storage.saveInfo_vestingState, Except.ok.injEq, Prod.mk.injEq] at hclaim
    obtain ⟨released, hreleased, state, hstate, totalReleased, ⟨-, rfl⟩, rfl, rfl⟩ := hclaim
    obtain ⟨state', hstate', hgranted⟩ := h.state hstate
    have htotal : state'.totalReleased + amount.getD available < 2 ^ 128 := by
      have hle := (hinv.rest_le hload').2
      have hlt := hinv.bounded
      unfold Storage.totals at hle hlt
      rw [hstate', Option.getD_some] at hle hlt
      omega
    have hsaved := h.saveInfo_inside info.sender
      { account with releasedAmount := released } env.height
    have hboth := hsaved.saveState
      (v := { state with totalReleased := state.totalReleased + amount.getD available })
      (u := { state' with totalReleased := state'.totalReleased + amount.getD available })
      hgranted env.height
    refine ⟨_, ?_, hboth⟩
    simp only [bind_eq_ok, mapError_eq_ok, exists_const, rejectIf_eq_ok, getVestingToken,
      okOr_eq_ok, SnapshotMap.load, Map.load_eq_ok]
    refine ⟨token, htoken', account, hload', available, havailable, henough, ?_⟩
    rw [if_neg hzero]
    simp only [bind_eq_ok, mapError_eq_ok, okOr_eq_ok, Uint.checkedAdd_eq_ok,
      Storage.saveInfo_vestingState]
    exact ⟨released, hreleased, state', hstate', _, ⟨htotal, rfl⟩, rfl⟩

/-- A registration looks at no account but to keep what was released to it. -/
theorem registerAccount (h : s.SameFor outsider t) {height toDeposit : Nat}
    {account : VestingAccount} {st : Nat × Storage}
    (hround : Vesting.registerAccount height (toDeposit, s) account = .ok st) :
    ∃ t', Vesting.registerAccount height (toDeposit, t) account = .ok (st.1, t') ∧
      st.2.SameFor outsider t' := by
  unfold Vesting.registerAccount at hround ⊢
  simp only [bind_eq_ok, Except.ok.injEq] at hround
  obtain ⟨_, hassert, granted, hadd, rfl⟩ := hround
  refine ⟨_, bind_eq_ok.mpr ⟨_, hassert, bind_eq_ok.mpr ⟨granted, hadd, rfl⟩⟩, ?_⟩
  refine h.saveInfo account.address (fun ha => ?_) height
  dsimp only
  rw [h.accounts.mayLoad _ ha]

theorem grantTotal (h : s.SameFor outsider t) {toDeposit height : Nat}
    (htotal : Vesting.grantTotal s toDeposit height = .ok s') :
    ∃ t', Vesting.grantTotal t toDeposit height = .ok t' ∧ s'.SameFor outsider t' := by
  have hgranted := h.totalGranted
  unfold Vesting.grantTotal at htotal ⊢
  unfold totals at hgranted
  simp only [bind_eq_ok, mapError_eq_ok, Uint.checkedAdd_eq_ok, Except.ok.injEq] at htotal ⊢
  obtain ⟨_, ⟨hlt, rfl⟩, rfl⟩ := htotal
  exact ⟨_, ⟨_, ⟨by rw [hgranted]; exact hlt, rfl⟩, rfl⟩, h.saveState (by rw [hgranted]) height⟩

theorem registerVestingAccounts (h : s.SameFor outsider t)
    {vestingAccounts : List VestingAccount} {amount height : Nat}
    (hregister : Vesting.registerVestingAccounts s vestingAccounts amount height = .ok s') :
    ∃ t', Vesting.registerVestingAccounts t vestingAccounts amount height = .ok t' ∧
      s'.SameFor outsider t' := by
  unfold Vesting.registerVestingAccounts at hregister ⊢
  simp only [bind_eq_ok, exists_const, rejectIf_eq_ok] at hregister ⊢
  obtain ⟨⟨toDeposit, u⟩, hloop, hamount, htotal⟩ := hregister
  have hrounds : ∃ st', vestingAccounts.foldlM (Vesting.registerAccount height) (0, t) =
      .ok st' ∧ st'.1 = toDeposit ∧ u.SameFor outsider st'.2 := by
    refine foldlM_simulation (s := (0, s)) (t := (0, t))
      (R := fun st st' : Nat × Storage => st'.1 = st.1 ∧ st.2.SameFor outsider st'.2)
      ⟨rfl, h⟩ ?_ hloop
    rintro ⟨n, u⟩ st ⟨m, v⟩ account - ⟨hsum, hsame⟩ hround
    obtain rfl : m = n := hsum
    obtain ⟨v', hround', hsame'⟩ := hsame.registerAccount hround
    exact ⟨_, hround', rfl, hsame'⟩
  obtain ⟨⟨_, v⟩, hloop', rfl, hsame⟩ := hrounds
  obtain ⟨t', htotal', hsame'⟩ := hsame.grantTotal htotal
  exact ⟨t', ⟨_, hloop', hamount, htotal'⟩, hsame'⟩

/-- A removal of accounts that are no outsiders'. -/
theorem removeAccount (h : s.SameFor outsider t) (hgap : t.releasedGap = 0)
    {vestingToken : AssetInfo} {clawbackAddress address : Addr} {height : Nat}
    (haddress : ¬ outsider address) {st : Storage × List TransferMsg}
    (hround : Vesting.removeAccount vestingToken clawbackAddress height (s, msgs) address =
      .ok st) :
    ∃ t', Vesting.removeAccount vestingToken clawbackAddress height (t, msgs) address =
      .ok (t', st.2) ∧ st.1.SameFor outsider t' := by
  unfold Vesting.removeAccount at hround ⊢
  dsimp only at hround ⊢
  rw [h.accounts.mayLoad _ haddress]
  split at hround
  · obtain rfl := Except.ok.inj hround
    exact ⟨t, rfl, h⟩
  · rename_i account hload
    simp only [bind_eq_ok, mapError_eq_ok, okOr_eq_ok, Uint.checkedSub_eq_ok,
      Except.ok.injEq] at hround
    obtain ⟨total, htotal, amount, hamount, state, hstate, _, ⟨hgranted, rfl⟩, _,
      ⟨hreleased, rfl⟩, rfl⟩ := hround
    obtain ⟨state', hstate', hsame⟩ := h.state hstate
    -- the released total counts what was released to the account
    have hcounted : account.releasedAmount ≤ state'.totalReleased := by
      have hle := Map.le_sum (show t.vestingInfo.primary.mayLoad address = some account by
        rw [← hload, ← h.accounts.mayLoad _ haddress]; rfl) fun _ i => i.releasedAmount
      unfold releasedGap totals at hgap
      rw [hstate', Option.getD_some] at hgap
      unfold releasedSum at hgap
      omega
    refine ⟨_, ?_, (h.saveState (u := ⟨state'.totalGranted - total,
      state'.totalReleased - account.releasedAmount⟩) ?_ height).removeInfo address height⟩
    · simp only [bind_eq_ok, mapError_eq_ok, okOr_eq_ok, Uint.checkedSub_eq_ok]
      exact ⟨total, htotal, amount, hamount, state', hstate', _,
        ⟨by rw [hsame]; exact hgranted, rfl⟩, _, ⟨hcounted, rfl⟩, rfl⟩
    · dsimp only
      rw [hsame]

theorem removeVestingAccounts (h : s.SameFor outsider t) (hgap : t.releasedGap = 0)
    {vestingAccounts : List Addr} {clawbackAccount : Addr}
    (haccounts : ∀ a ∈ vestingAccounts, ¬ outsider a)
    (hremove : Vesting.removeVestingAccounts s env info vestingAccounts clawbackAccount =
      .ok (s', msgs)) :
    ∃ t', Vesting.removeVestingAccounts t env info vestingAccounts clawbackAccount =
      .ok (t', msgs) ∧ s'.SameFor outsider t' := by
  unfold Vesting.removeVestingAccounts at hremove ⊢
  simp only [bind_eq_ok, exists_const, rejectIf_eq_ok, getVestingToken, okOr_eq_ok,
    h.config] at hremove ⊢
  obtain ⟨howner, token, htoken, hloop⟩ := hremove
  have hrounds : ∃ st', vestingAccounts.foldlM
      (Vesting.removeAccount token clawbackAccount env.height) (t, []) = .ok st' ∧
        st'.2 = msgs ∧ s'.SameFor outsider st'.1 ∧ st'.1.releasedGap = 0 := by
    refine foldlM_simulation (s := (s, [])) (t := (t, []))
      (R := fun st st' : Storage × List TransferMsg =>
        st'.2 = st.2 ∧ st.1.SameFor outsider st'.1 ∧ st'.1.releasedGap = 0)
      ⟨rfl, h, hgap⟩ ?_ hloop
    rintro ⟨u, ms⟩ st ⟨v, ns⟩ a ha ⟨hms, hsame, hgap⟩ hround
    obtain rfl : ns = ms := hms
    obtain ⟨v', hround', hsame'⟩ := hsame.removeAccount hgap (haccounts a ha) hround
    obtain ⟨_, -, hremoves⟩ := removeAccount_removes hround'
    exact ⟨_, hround', rfl, hsame', hremoves.released.trans hgap⟩
  obtain ⟨⟨t', _⟩, hloop', rfl, hsame, -⟩ := hrounds
  exact ⟨t', ⟨howner, token, htoken, hloop'⟩, hsame⟩

/-- Every message of somebody who is not an outsider. -/
theorem execute (h : s.SameFor outsider t) (hinv : t.Inv env.time) {msg : ExecuteMsg}
    (hclaimer : ∀ recipient amount, msg = .claim recipient amount → ¬ outsider info.sender)
    (hnames : ∀ a ∈ msg.names, ¬ outsider a)
    (hexec : Vesting.execute s env info msg = .ok (s', msgs)) :
    ∃ t', Vesting.execute t env info msg = .ok (t', msgs) ∧ s'.SameFor outsider t' := by
  -- the two runs read the same configuration, so every check has the same outcome
  have hconfig := h.config
  have hmanagers := h.vestingManagers
  cases msg with
  | claim recipient amount => exact h.claim hinv (hclaimer recipient amount rfl) hexec
  | receive msg =>
      simp only [Vesting.execute, receiveCw20, authorizeDeposit, bind_eq_ok, getVestingToken,
        hconfig, h.isSenderWhitelisted_eq] at hexec ⊢
      obtain ⟨token, htoken, _, hauthorized, hook, hpayload, hexec⟩ := hexec
      cases hook with
      | registerVestingAccounts vestingAccounts =>
          simp only [Except.ok.injEq, Prod.mk.injEq] at hexec
          obtain ⟨_, hregister, rfl, rfl⟩ := hexec
          obtain ⟨t', hregister', hsame⟩ := h.registerVestingAccounts hregister
          exact ⟨t', ⟨token, htoken, _, hauthorized, _, hpayload, t', hregister', rfl⟩, hsame⟩
  | registerVestingAccounts vestingAccounts =>
      simp only [Vesting.execute, registerWithCoins, bind_eq_ok, getVestingToken,
        hconfig, h.isSenderWhitelisted_eq] at hexec ⊢
      obtain ⟨token, htoken, hexec⟩ := hexec
      cases token with
      | token contractAddr => cases hexec
      | nativeToken denom =>
          simp only [bind_eq_ok, Except.ok.injEq, Prod.mk.injEq] at hexec
          obtain ⟨_, hauthorized, amount, hpay, _, hregister, rfl, rfl⟩ := hexec
          obtain ⟨t', hregister', hsame⟩ := h.registerVestingAccounts hregister
          refine ⟨t', ⟨_, htoken, ?_⟩, hsame⟩
          simp only [bind_eq_ok]
          exact ⟨_, hauthorized, amount, hpay, t', hregister', rfl⟩
  | proposeNewOwner owner expiresIn =>
      simp only [Vesting.execute, bind_eq_ok, hconfig, Except.ok.injEq, Prod.mk.injEq] at hexec ⊢
      obtain ⟨p, hpropose, rfl, rfl⟩ := hexec
      exact ⟨_, ⟨p, hpropose, rfl, rfl⟩, ⟨rfl, h.vestingManagers, rfl⟩, h.granted, h.accounts⟩
  | dropOwnershipProposal =>
      simp only [Vesting.execute, bind_eq_ok, hconfig, Except.ok.injEq, Prod.mk.injEq] at hexec ⊢
      obtain ⟨_, hdrop, rfl, rfl⟩ := hexec
      exact ⟨_, ⟨_, hdrop, rfl, rfl⟩, ⟨rfl, h.vestingManagers, rfl⟩, h.granted, h.accounts⟩
  | claimOwnership =>
      simp only [Vesting.execute, bind_eq_ok, hconfig, h.ownershipProposal, Except.ok.injEq,
        Prod.mk.injEq] at hexec ⊢
      obtain ⟨owner, hclaims, rfl, rfl⟩ := hexec
      exact ⟨_, ⟨owner, hclaims, rfl, rfl⟩, ⟨rfl, h.vestingManagers, rfl⟩, h.granted, h.accounts⟩
  | setVestingToken vestingToken =>
      simp only [Vesting.execute, setVestingToken, bind_eq_ok, hconfig, Except.ok.injEq,
        Prod.mk.injEq] at hexec ⊢
      obtain ⟨_, hsender, _, hunset, _, hcheck, rfl, rfl⟩ := hexec
      exact ⟨_, ⟨_, hsender, _, hunset, _, hcheck, rfl, rfl⟩,
        ⟨rfl, h.vestingManagers, h.ownershipProposal⟩, h.granted, h.accounts⟩
  | managedExtension msg =>
      simp only [Vesting.execute, handleExecuteManagedMsg, bind_eq_ok, hconfig] at hexec ⊢
      obtain ⟨_, hmanaged, hexec⟩ := hexec
      cases msg with
      | removeVestingAccounts vestingAccounts clawbackAccount =>
          obtain ⟨t', hremove, hsame⟩ := h.removeVestingAccounts hinv.released hnames hexec
          exact ⟨t', ⟨_, hmanaged, hremove⟩, hsame⟩
  | withManagersExtension msg =>
      simp only [Vesting.execute, handleExecuteWithManagersMsg, bind_eq_ok, hconfig] at hexec ⊢
      obtain ⟨_, hon, _, howner, hexec⟩ := hexec
      cases msg with
      | addVestingManagers managers =>
          simp only [Except.ok.injEq, Prod.mk.injEq] at hexec ⊢
          obtain ⟨rfl, rfl⟩ := hexec
          exact ⟨_, ⟨_, hon, _, howner, rfl, rfl⟩,
            ⟨rfl, by rw [hmanagers], h.ownershipProposal⟩, h.granted, h.accounts⟩
      | removeVestingManagers managers =>
          simp only [Except.ok.injEq, Prod.mk.injEq] at hexec ⊢
          obtain ⟨rfl, rfl⟩ := hexec
          exact ⟨_, ⟨_, hon, _, howner, rfl, rfl⟩,
            ⟨rfl, by rw [hmanagers], h.ownershipProposal⟩, h.granted, h.accounts⟩

end Storage.SameFor

/-! ### What outsiders do -/

/-- An outsider who claims writes its own account and the released total. -/
theorem claim_outside {recipient : Option Addr} {amount : Option Nat}
    (hsender : outsider info.sender)
    (h : claim s env info recipient amount = .ok (s', msgs)) : s.SameFor outsider s' := by
  unfold claim at h
  simp only [bind_eq_ok] at h
  obtain ⟨_, -, account, -, _, -, _, -, h⟩ := h
  split at h
  · simp only [Except.ok.injEq, Prod.mk.injEq] at h
    obtain ⟨rfl, -⟩ := h
    exact .refl s
  · simp only [bind_eq_ok, okOr_eq_ok, Storage.saveInfo_vestingState, Except.ok.injEq,
      Prod.mk.injEq] at h
    obtain ⟨_, -, state, hstate, _, -, rfl, -⟩ := h
    have hsaved := @Storage.SameFor.saveInfo_outside outsider _ _ hsender s
    refine ⟨⟨rfl, rfl, rfl⟩, ?_, (hsaved _ _).accounts⟩
    rw [Storage.saveState_mayLoad, hstate, Option.map_some, Option.map_some]

/-- An outsider can do nothing but claim. -/
theorem execute_outside {msg : ExecuteMsg} (h : s.Powerless outsider)
    (hsender : outsider info.sender)
    (hcaller : s.config.vestingToken ≠ some (.token info.sender))
    (hexec : execute s env info msg = .ok (s', msgs)) : s.SameFor outsider s' := by
  -- every other message asks for somebody that no outsider is
  have howner : ¬ info.sender = s.config.owner := fun heq => h.owner (heq ▸ hsender)
  cases msg with
  | claim recipient amount => exact claim_outside hsender hexec
  | receive msg =>
      simp only [execute, receiveCw20, authorizeDeposit, bind_eq_ok, getVestingToken, okOr_eq_ok,
        rejectIf_eq_ok, not_or, not_not] at hexec
      obtain ⟨token, htoken, -, ⟨-, rfl⟩, -⟩ := hexec
      exact absurd htoken hcaller
  | registerVestingAccounts vestingAccounts =>
      simp only [execute, registerWithCoins, bind_eq_ok] at hexec
      obtain ⟨token, -, hexec⟩ := hexec
      cases token with
      | token contractAddr => cases hexec
      | nativeToken denom =>
          simp only [bind_eq_ok, rejectIf_eq_ok, h.notWhitelisted hsender] at hexec
          obtain ⟨_, hno, -⟩ := hexec
          exact absurd (by simp) hno
  | proposeNewOwner owner expiresIn =>
      simp only [execute, proposeNewOwner, bind_eq_ok, mapError_eq_ok, rejectIf_eq_ok,
        not_not] at hexec
      obtain ⟨_, ⟨_, hno, -⟩, -⟩ := hexec
      exact absurd hno howner
  | dropOwnershipProposal =>
      simp only [execute, dropOwnershipProposal, bind_eq_ok, mapError_eq_ok, rejectIf_eq_ok,
        not_not] at hexec
      obtain ⟨_, hno, -⟩ := hexec
      exact absurd hno howner
  | claimOwnership =>
      simp only [execute, claimOwnership, bind_eq_ok, mapError_eq_ok, rejectIf_eq_ok, okOr_eq_ok,
        not_not] at hexec
      obtain ⟨_, ⟨p, hp, _, hno, -⟩, -⟩ := hexec
      exact absurd (hno ▸ hsender) (h.ownershipProposal p hp)
  | setVestingToken vestingToken =>
      simp only [execute, setVestingToken, bind_eq_ok, rejectIf_eq_ok, not_and_or, not_not] at hexec
      obtain ⟨_, hno, -⟩ := hexec
      rcases hno with hno | hno
      · exact absurd hno howner
      · exact absurd (hno ▸ hsender) h.tokenInfoManager
  | managedExtension msg =>
      simp only [execute, handleExecuteManagedMsg, bind_eq_ok] at hexec
      obtain ⟨_, -, hexec⟩ := hexec
      cases msg with
      | removeVestingAccounts vestingAccounts clawbackAccount =>
          simp only [removeVestingAccounts, bind_eq_ok, rejectIf_eq_ok, not_not] at hexec
          obtain ⟨_, hno, -⟩ := hexec
          exact absurd hno howner
  | withManagersExtension msg =>
      simp only [execute, handleExecuteWithManagersMsg, bind_eq_ok, rejectIf_eq_ok,
        not_not] at hexec
      obtain ⟨_, -, _, hno, -⟩ := hexec
      exact absurd hno howner

/-! ### Runs -/

/-- Who starts a transaction. A token only delivers what its sender asked for. -/
def Action.caller : Action → Option Addr
  | .send _ sender _ _ => some sender
  | .execute info _ => some info.sender
  | _ => none

/-- Whom a transaction gives power, and whose account it removes. -/
def Action.names : Action → List Addr
  | .execute _ msg => msg.names
  | _ => []

variable (outsider) in
/-- A transaction of an outsider. -/
def Action.ByOutsider (a : Action) : Prop := ∃ caller ∈ a.caller, outsider caller

instance Action.decidableByOutsider (a : Action) : Decidable (a.ByOutsider outsider) :=
  decidable_of_iff ((a.caller.any fun caller => outsider caller) = true)
    (by simp [Action.ByOutsider, Option.any_eq_true])

variable (outsider) in
/-- Nobody else gives an outsider power or removes its account. -/
def Action.LeavesOut (a : Action) : Prop :=
  ¬ a.ByOutsider outsider → ∀ addr ∈ a.names, ¬ outsider addr

instance Action.decidableLeavesOut (a : Action) : Decidable (a.LeavesOut outsider) :=
  inferInstanceAs (Decidable (¬ a.ByOutsider outsider → ∀ addr ∈ a.names, ¬ outsider addr))

/-- Two contracts that are the same to everybody but the outsiders. -/
structure World.Alike (outsider : Addr → Prop) [DecidablePred outsider] (w v : World) :
    Prop where
  inv : w.Inv
  inv' : v.Inv
  env : v.env = w.env
  storage : w.storage.SameFor outsider v.storage
  claimed : ∀ a, ¬ outsider a → v.claimed a = w.claimed a
  powerless : w.storage.Powerless outsider

theorem World.Alike.symm {w v : World} (h : w.Alike outsider v) : v.Alike outsider w where
  inv := h.inv'
  inv' := h.inv
  env := h.env.symm
  storage := h.storage.symm
  claimed a ha := (h.claimed a ha).symm
  powerless := h.storage.toSameAuthority.powerless h.powerless

/-- Transfers of one token that its balance covers go through. -/
theorem payOuts_covered {accepts : TransferMsg → Bool} {token : AssetInfo} :
    ∀ {msgs : List TransferMsg} {w : World}, (∀ m ∈ msgs, m.info = token) →
      (∀ m ∈ msgs, accepts m = true) → quantities msgs ≤ w.held token →
        ∃ w', msgs.foldlM (World.payOut accepts) w = .ok w' := by
  intro msgs
  induction msgs with
  | nil => intro w _ _ _; exact ⟨w, rfl⟩
  | cons m ms ih =>
      intro w htoken haccepts hheld
      have hm := htoken m List.mem_cons_self
      have hsum : quantities (m :: ms) = m.quantity + quantities ms := by simp [quantities]
      have hpay : ∃ w₁, w.payOut accepts m = .ok w₁ ∧
          w.held token ≤ w₁.held token + m.quantity := by
        have hok : rejectIf (accepts m = false ∨ w.held m.info < m.quantity)
            (ContractError.std (.overflow .sub)) = .ok () := by
          rw [rejectIf_eq_ok, haccepts m List.mem_cons_self, hm]
          simp
          omega
        by_cases hself : m.recipient = w.env.contract
        · refine ⟨w, bind_eq_ok.mpr ⟨_, hok, by rw [if_pos hself]⟩, Nat.le_add_right _ _⟩
        · refine ⟨_, bind_eq_ok.mpr ⟨_, hok, by rw [if_neg hself]⟩, ?_⟩
          dsimp only
          rw [hm, if_pos rfl]
          omega
      obtain ⟨w₁, hw₁, hleft⟩ := hpay
      obtain ⟨w', hw'⟩ := ih (w := w₁) (fun a ha => htoken a (List.mem_cons_of_mem _ ha))
        (fun a ha => haccepts a (List.mem_cons_of_mem _ ha)) (by omega)
      exact ⟨w', foldlM_cons_ok.mpr ⟨w₁, hw₁, hw'⟩⟩

theorem payOuts_accepted {accepts : TransferMsg → Bool} :
    ∀ {msgs : List TransferMsg} {w w' : World}, msgs.foldlM (World.payOut accepts) w = .ok w' →
      ∀ m ∈ msgs, accepts m = true := by
  intro msgs
  induction msgs with
  | nil => intro w w' _ m hm; cases hm
  | cons m ms ih =>
      intro w w' h a ha
      obtain ⟨w₁, hm, hrest⟩ := foldlM_cons_ok.mp h
      rcases List.mem_cons.mp ha with rfl | ha
      · unfold World.payOut at hm
        simp only [bind_eq_ok, rejectIf_eq_ok, not_or] at hm
        obtain ⟨_, ⟨haccepts, -⟩, -⟩ := hm
        simpa using haccepts
      · exact ih hrest a ha

theorem Storage.Inv.owed_nonneg {time : Nat} (h : s.Inv time) : 0 ≤ s.owed := by
  have hsum := Storage.sum_rest fun _ _ hload => h.sound hload
  rw [Storage.owed_eq]
  omega

/-- What a message sends out was owed. -/
theorem Effect.covered {msg : ExecuteMsg} (h : Effect env info s s' msg msgs)
    (hinv : s.Inv env.time) : msgs = [] ∨ ∃ token, s.config.vestingToken = some token ∧
      (∀ m ∈ msgs, m.info = token) ∧ (quantities msgs : Int) ≤ s.owed := by
  have hleft := (hinv.effect h).owed_nonneg
  cases h with
  | idle => exact Or.inl rfl
  | registered => exact Or.inl rfl
  | paid recipient requested token paid _ hpays =>
      have howed := hpays.booked.owed
      rcases hpays.messages with ⟨-, rfl⟩ | rfl
      · exact Or.inl rfl
      · refine Or.inr ⟨token, hpays.vestingToken, by simp, ?_⟩
        rw [quantities_singleton, intoMsg_quantity]
        dsimp only
        omega
  | removed _ _ token _ htoken _ hbooked _ hmsgs _ =>
      have howed := hbooked.owed
      exact Or.inr ⟨token, htoken, hmsgs, by omega⟩

/-- What a contract does for somebody else does not depend on the outsiders. -/
theorem World.Alike.call {accepts : TransferMsg → Bool} {w w' v : World} {msg : ExecuteMsg}
    (h : w.Alike outsider v)
    (hclaimer : ∀ recipient amount, msg = .claim recipient amount → ¬ outsider info.sender)
    (hnames : ∀ a ∈ msg.names, ¬ outsider a) (hcall : w.call accepts info msg = .ok w') :
    ∃ v', v.call accepts info msg = .ok v' ∧ v'.env = w'.env ∧
      w'.storage.SameFor outsider v'.storage ∧
      (∀ a, ¬ outsider a → v'.claimed a = w'.claimed a) ∧ w'.storage.Powerless outsider := by
  unfold World.call at hcall ⊢
  rw [bind_eq_ok] at hcall
  obtain ⟨⟨s', msgs⟩, hexec, hrun⟩ := hcall
  have hinv : v.storage.Inv w.env.time := h.env ▸ h.inv'.storage
  obtain ⟨t', hexec', hsame⟩ := h.storage.execute hinv hclaimer hnames hexec
  rw [← h.env] at hexec'
  obtain ⟨hstorage, henv, hclaimed⟩ := payOuts_frame hrun
  let v₀ : World := { v with storage := t', claimed := v.claimedAfter t' info msg msgs }
  have hpaid : ∃ v', msgs.foldlM (World.payOut accepts) v₀ = .ok v' := by
    rcases (execute_effect hexec').covered h.inv'.storage with rfl | ⟨token, htoken, hmsgs, hle⟩
    · exact ⟨v₀, rfl⟩
    · have hheld := h.inv'.solvent token htoken
      exact payOuts_covered hmsgs (payOuts_accepted hrun) (show quantities msgs ≤ v.held token by
        omega)
  obtain ⟨v', hv'⟩ := hpaid
  obtain ⟨hstorage', henv', hclaimed'⟩ := payOuts_frame hv'
  refine ⟨v', bind_eq_ok.mpr ⟨_, hexec', hv'⟩, ?_, ?_, ?_, ?_⟩
  · rw [henv', henv]
    exact h.env
  · rw [hstorage, hstorage']
    exact hsame
  · intro a ha
    rw [hclaimed, hclaimed']
    show v.claimedAfter t' info msg msgs a = w.claimedAfter s' info msg msgs a
    unfold World.claimedAfter
    rw [hsame.accounts.mayLoad a ha, h.claimed a ha]
  · rw [hstorage]
    exact h.powerless.execute hnames hexec

theorem World.Alike.of_held {w w' v v' : World} (h : w.Alike outsider v)
    (hstorage : w'.storage = w.storage) (henv : w'.env = w.env) (hclaimed : w'.claimed = w.claimed)
    (hheld : ∀ a, w.held a ≤ w'.held a) (hstorage' : v'.storage = v.storage)
    (henv' : v'.env = v.env) (hclaimed' : v'.claimed = v.claimed)
    (hheld' : ∀ a, v.held a ≤ v'.held a) : w'.Alike outsider v' where
  inv := h.inv.of_held hstorage henv hclaimed hheld
  inv' := h.inv'.of_held hstorage' henv' hclaimed' hheld'
  env := by rw [henv, henv', h.env]
  storage := by
    rw [hstorage, hstorage']
    exact h.storage
  claimed a ha := by rw [hclaimed, hclaimed', h.claimed a ha]
  powerless := hstorage ▸ h.powerless

/-- A transaction of an outsider changes nothing for the others. -/
theorem World.Alike.hide {accepts : TransferMsg → Bool} {w w' v : World} {a : Action}
    (h : w.Alike outsider v) (ha : a.ByOutsider outsider) (hexec : w.exec accepts a = .ok w') :
    w'.Alike outsider v := by
  have hinv := h.inv.exec hexec
  obtain ⟨caller, hcaller, houtsider⟩ := ha
  cases a with
  | advance seconds blocks => cases hcaller
  | transfer asset amount => cases hcaller
  | send token sender amount msg =>
      obtain rfl := Option.some.inj hcaller
      simp only [World.exec, World.call, bind_eq_ok] at hexec
      obtain ⟨⟨s', msgs⟩, hexec, -⟩ := hexec
      exact absurd hexec (receive_outside h.powerless houtsider)
  | execute info msg =>
      obtain rfl := Option.some.inj hcaller
      simp only [World.exec, World.call, bind_eq_ok, rejectIf_eq_ok] at hexec
      obtain ⟨_, hnot, ⟨s', msgs⟩, hexec, hrun⟩ := hexec
      obtain ⟨hstorage, henv, hclaimed, -⟩ := creditCoins_frame info.funds w
      obtain ⟨hstorage', henv', hclaimed'⟩ := payOuts_frame hrun
      rw [hstorage, henv] at hexec
      have hsame : w.storage.SameFor outsider w'.storage := by
        rw [hstorage']
        exact execute_outside h.powerless houtsider hnot hexec
      refine ⟨hinv, h.inv', ?_, hsame.symm.trans h.storage, fun addr haddr => ?_,
        hsame.toSameAuthority.powerless h.powerless⟩
      · rw [henv', h.env]
        exact henv.symm
      · -- nothing else was paid: the record of the claims is the released amount
        rw [h.inv'.claimed, hinv.claimed, Storage.account, Storage.account,
          (hsame.symm.trans h.storage).accounts.mayLoad addr haddr]

/-- Any other transaction does the same in both contracts. -/
theorem World.Alike.match_ok {accepts : TransferMsg → Bool} {w w' v : World} {a : Action}
    (h : w.Alike outsider v) (ha : a.LeavesOut outsider) (hseen : ¬ a.ByOutsider outsider)
    (hexec : w.exec accepts a = .ok w') :
    ∃ v', v.exec accepts a = .ok v' ∧ w'.Alike outsider v' := by
  have hnames := ha hseen
  have hinv := h.inv.exec hexec
  have hboth : ∃ v', v.exec accepts a = .ok v' ∧ v'.env = w'.env ∧
      w'.storage.SameFor outsider v'.storage ∧
      (∀ a, ¬ outsider a → v'.claimed a = w'.claimed a) ∧ w'.storage.Powerless outsider := by
    cases a with
    | advance seconds blocks =>
        obtain rfl := Except.ok.inj hexec
        exact ⟨_, rfl, by rw [h.env], h.storage, h.claimed, h.powerless⟩
    | transfer asset amount =>
        obtain rfl := Except.ok.inj hexec
        exact ⟨_, rfl, h.env, h.storage, h.claimed, h.powerless⟩
    | send token sender amount msg =>
        have hcredited : (w.credit (.token token) amount).Alike outsider
            (v.credit (.token token) amount) :=
          h.of_held rfl rfl rfl (fun _ => held_le_credit ..) rfl rfl rfl fun _ => held_le_credit ..
        exact hcredited.call (by intro _ _ heq; cases heq) (by simp [ExecuteMsg.names]) hexec
    | execute info msg =>
        simp only [World.exec, bind_eq_ok, rejectIf_eq_ok, exists_const,
          h.storage.config] at hexec ⊢
        obtain ⟨hnot, hcall⟩ := hexec
        obtain ⟨hstorage, henv, hclaimed, hheld⟩ := creditCoins_frame info.funds w
        obtain ⟨hstorage', henv', hclaimed', hheld'⟩ := creditCoins_frame info.funds v
        have hcredited := h.of_held hstorage henv hclaimed hheld hstorage' henv' hclaimed' hheld'
        obtain ⟨v', hcall', hrest⟩ := hcredited.call
          (fun _ _ _ houtsider => hseen ⟨info.sender, rfl, houtsider⟩) hnames hcall
        exact ⟨v', ⟨hnot, hcall'⟩, hrest⟩
  obtain ⟨v', hexec', henv, hsame, hclaimed, hpowerless⟩ := hboth
  exact ⟨v', hexec', hinv, h.inv'.exec hexec', henv, hsame, hclaimed, hpowerless⟩

theorem unwinding (outsider : Addr → Prop) [DecidablePred outsider]
    (accepts : TransferMsg → Bool) :
    Unwinding (World.exec accepts) (Action.ByOutsider outsider) (Action.LeavesOut outsider)
      (World.Alike outsider) where
  symm _ _ := World.Alike.symm
  hide _ _ _ _ h _ := h.hide
  match_ok _ _ _ _ := World.Alike.match_ok

/-- What everybody but the outsiders has to do with is the same in both contracts. -/
structure World.SameToOthers (outsider : Addr → Prop) (w v : World) : Prop where
  env : v.env = w.env
  authority : SameAuthority w.storage v.storage
  totalGranted : v.storage.totals.totalGranted = w.storage.totals.totalGranted
  accounts : ∀ a, ¬ outsider a → v.storage.vestingInfo.mayLoad a = w.storage.vestingInfo.mayLoad a
  claimed : ∀ a, ¬ outsider a → v.claimed a = w.claimed a
  /-- The unclaimed amounts of the others at past blocks. -/
  history : ∀ a, ¬ outsider a → ∀ height,
    handleQueryHistoricalMsg v.storage (.unclaimedAmountAtHeight a height) =
      handleQueryHistoricalMsg w.storage (.unclaimedAmountAtHeight a height)

theorem World.Alike.sameToOthers {w v : World} (h : w.Alike outsider v) :
    w.SameToOthers outsider v where
  env := h.env
  authority := h.storage.toSameAuthority
  totalGranted := h.storage.totalGranted
  accounts := h.storage.accounts.mayLoad
  claimed := h.claimed
  history a ha height := by
    have hquery : queryUnclaimedAmountAtHeight v.storage a height =
        queryUnclaimedAmountAtHeight w.storage a height := by
      unfold queryUnclaimedAmountAtHeight
      rw [h.storage.accounts.mayLoadAtHeight ha]
    unfold handleQueryHistoricalMsg
    dsimp only
    rw [h.storage.config, hquery]

theorem World.Alike.start {b : VestingBaseBuilder} {owner tokenInfoManager : Addr}
    (howner : ¬ outsider owner) (hmanager : ¬ outsider tokenInfoManager)
    (hmanagers : ∀ a ∈ b.vestingManagers, ¬ outsider a) (env : Env) (held : AssetInfo → Nat) :
    (World.start b owner tokenInfoManager env held).Alike outsider
      (World.start b owner tokenInfoManager env held) where
  inv := .start b owner tokenInfoManager env held
  inv' := .start b owner tokenInfoManager env held
  env := rfl
  storage := .refl _
  claimed _ _ := rfl
  powerless := build_powerless howner hmanager hmanagers

/-- Whatever people without power do, in any order and at any time, everybody else has the
same accounts, claims, rights and past as without them, and each of their transactions
succeeds or fails as it would have. -/
theorem outsiders_unnoticed (outsider : Addr → Prop) [DecidablePred outsider]
    (accepts : TransferMsg → Bool) (b : VestingBaseBuilder) (owner tokenInfoManager : Addr)
    (env : Env) (held : AssetInfo → Nat) (as : List Action) (howner : ¬ outsider owner)
    (hmanager : ¬ outsider tokenInfoManager) (hmanagers : ∀ a ∈ b.vestingManagers, ¬ outsider a)
    (hleft : ∀ a ∈ as, a.LeavesOut outsider) :
    let start := World.start b owner tokenInfoManager env held
    (run (World.exec accepts) start as).SameToOthers outsider
        (run (World.exec accepts) start (as.filter fun a => ¬ a.ByOutsider outsider)) ∧
      ∀ before a after, as = before ++ a :: after → ¬ a.ByOutsider outsider →
        ((run (World.exec accepts) start before).exec accepts a).isOk =
          ((run (World.exec accepts) start
            (before.filter fun a => ¬ a.ByOutsider outsider)).exec accepts a).isOk := by
  intro start
  have hunwinding := unwinding outsider accepts
  have hstart : start.Alike outsider start := .start howner hmanager hmanagers env held
  exact ⟨(hunwinding.run hstart hleft).sameToOthers,
    fun before a after hsplit hseen => hunwinding.outcome hstart hleft hsplit hseen⟩

/-- Mallory has an account like Bob, tries to become owner, and claims. -/
def sampleTransactions : List Action :=
  [.execute ⟨"owner", []⟩ (.setVestingToken (.token "token")),
    .send "token" "owner" 300 (some (.registerVestingAccounts
      [⟨"bob", [⟨⟨0, 0⟩, some ⟨100, 200⟩⟩]⟩, ⟨"mallory", [⟨⟨0, 100⟩, none⟩]⟩])),
    .execute ⟨"mallory", []⟩ (.proposeNewOwner "mallory" 100),
    .advance 50 5,
    .execute ⟨"mallory", []⟩ (.claim none (some 60)),
    .execute ⟨"bob", []⟩ (.claim none none)]

theorem outsiders_unnoticed_sample :
    let start := World.start ⟨[], true, false, false⟩ "owner" "manager" ⟨0, 1, "vesting"⟩
      fun _ => 0
    (run (World.exec fun _ => true) start sampleTransactions).SameToOthers (· = "mallory")
      (run (World.exec fun _ => true) start
        (sampleTransactions.filter fun a => ¬ a.ByOutsider (· = "mallory"))) :=
  (outsiders_unnoticed (· = "mallory") (fun _ => true) ⟨[], true, false, false⟩ "owner" "manager"
    ⟨0, 1, "vesting"⟩ (fun _ => 0) sampleTransactions (by decide) (by decide) (by simp)
    (by decide)).1

end NeutronTge.Vesting
