import NeutronTge.Astroport.Ownership
import NeutronTge.Vesting.Consistency

/-!
# NeutronTge.Vesting.Authority

Who can do what in a vesting contract. Power is to be the owner, the proposed owner, the token
info manager or a vesting manager. A message that is not about power leaves it as it is
(`SameAuthority`), and no message gives power to somebody it does not name: people without
power whom nobody names stay without (`Powerless`). The ownership is handed over in two steps.
-/

namespace NeutronTge.Vesting

open CosmWasm Astroport

variable {outsider : Addr → Prop} {s s' t : Storage} {env : Env} {info : MessageInfo}
  {msgs : List TransferMsg}

/-! ### Power -/

variable (outsider) in
/-- No outsider has power. -/
structure Storage.Powerless (s : Storage) : Prop where
  owner : ¬ outsider s.config.owner
  tokenInfoManager : ¬ outsider s.config.tokenInfoManager
  vestingManagers : ∀ a, s.vestingManagers.has a = true → ¬ outsider a
  ownershipProposal : ∀ p, s.ownershipProposal = some p → ¬ outsider p.owner

/-- Whom a message gives power, and whose account it removes. -/
def ExecuteMsg.names : ExecuteMsg → List Addr
  | .proposeNewOwner owner _ => [owner]
  | .managedExtension (.removeVestingAccounts vestingAccounts _) => vestingAccounts
  | .withManagersExtension (.addVestingManagers managers) => managers
  | _ => []

theorem Storage.Powerless.congr (h : s.Powerless outsider) (hconfig : s'.config = s.config)
    (hmanagers : s'.vestingManagers = s.vestingManagers)
    (hproposal : s'.ownershipProposal = s.ownershipProposal) : s'.Powerless outsider where
  owner := hconfig ▸ h.owner
  tokenInfoManager := hconfig ▸ h.tokenInfoManager
  vestingManagers := hmanagers ▸ h.vestingManagers
  ownershipProposal := hproposal ▸ h.ownershipProposal

theorem Storage.Powerless.notWhitelisted (h : s.Powerless outsider) {a : Addr}
    (ha : outsider a) : isSenderWhitelisted s a = false := by
  unfold isSenderWhitelisted
  rw [Bool.or_eq_false_iff]
  constructor
  · refine decide_eq_false fun heq => ?_
    rw [heq] at ha
    exact h.owner ha
  · rw [← Bool.not_eq_true]
    exact fun hhas => h.vestingManagers a hhas ha

/-- A token that an outsider sends registers nobody. -/
theorem receive_outside {msg : Cw20ReceiveMsg Cw20HookMsg} (h : s.Powerless outsider)
    (hsender : outsider msg.sender) : execute s env info (.receive msg) ≠ .ok (s', msgs) := by
  intro hexec
  simp only [execute, receiveCw20, authorizeDeposit, bind_eq_ok, rejectIf_eq_ok,
    h.notWhitelisted hsender] at hexec
  obtain ⟨_, -, _, hno, -⟩ := hexec
  exact hno (Or.inl (by simp))

theorem has_addManagers {managers : List Addr} {a : Addr} : ∀ {m : Map Addr Unit},
    (managers.foldl (fun m b => if m.has b then m else m.save b ()) m).has a = true →
      m.has a = true ∨ a ∈ managers := by
  induction managers with
  | nil => intro m h; exact Or.inl h
  | cons b rest ih =>
      intro m h
      rw [List.foldl_cons] at h
      rcases ih h with hold | hmem
      · split at hold
        · exact Or.inl hold
        · by_cases hab : a = b
          · exact Or.inr (hab ▸ List.mem_cons_self)
          · rw [Map.has, Map.mayLoad_save_ne hab] at hold
            exact Or.inl hold
      · exact Or.inr (List.mem_cons_of_mem b hmem)

theorem has_removeManagers {managers : List Addr} {a : Addr} : ∀ {m : Map Addr Unit},
    (managers.foldl Map.remove m).has a = true → m.has a = true := by
  induction managers with
  | nil => intro m h; exact h
  | cons b rest ih =>
      intro m h
      rw [List.foldl_cons] at h
      have hold := ih h
      rw [Map.has, Map.mayLoad_remove_eq] at hold
      split at hold
      · cases hold
      · exact hold

theorem build_powerless {b : VestingBaseBuilder} {owner tokenInfoManager : Addr}
    (howner : ¬ outsider owner) (hmanager : ¬ outsider tokenInfoManager)
    (hmanagers : ∀ a ∈ b.vestingManagers, ¬ outsider a) :
    (b.build owner tokenInfoManager).Powerless outsider := by
  have hsaved : ∀ (managers : List Addr) (m : Map Addr Unit) (a : Addr),
      (managers.foldl (fun m a => m.save a ()) m).has a = true →
        m.has a = true ∨ a ∈ managers := by
    intro managers
    induction managers with
    | nil => exact fun m a h => Or.inl h
    | cons c rest ih =>
        intro m a h
        rcases ih _ a h with hold | hmem
        · by_cases hac : a = c
          · exact Or.inr (hac ▸ List.mem_cons_self)
          · rw [Map.has, Map.mayLoad_save_ne hac] at hold
            exact Or.inl hold
        · exact Or.inr (List.mem_cons_of_mem c hmem)
  refine ⟨howner, hmanager, fun a ha => ?_, fun p hp => by cases hp⟩
  unfold VestingBaseBuilder.build at ha
  dsimp only at ha
  split at ha
  · rcases hsaved _ _ a ha with hempty | hmem
    · rw [Map.has, Map.mayLoad_empty] at hempty
      cases hempty
    · exact hmanagers a hmem
  · rw [Map.has, Map.mayLoad_empty] at ha
    cases ha

/-! ### Messages that give no power -/

/-- The owner, the managers and the proposal stay. -/
structure SameAuthority (s s' : Storage) : Prop where
  config : s'.config = s.config
  vestingManagers : s'.vestingManagers = s.vestingManagers
  ownershipProposal : s'.ownershipProposal = s.ownershipProposal

namespace SameAuthority

theorem refl (s : Storage) : SameAuthority s s := ⟨rfl, rfl, rfl⟩

theorem trans (h : SameAuthority s s') (h' : SameAuthority s' t) : SameAuthority s t :=
  ⟨h'.config.trans h.config, h'.vestingManagers.trans h.vestingManagers,
    h'.ownershipProposal.trans h.ownershipProposal⟩

theorem powerless (h : SameAuthority s s') (hs : s.Powerless outsider) :
    s'.Powerless outsider :=
  hs.congr h.config h.vestingManagers h.ownershipProposal

theorem claim {recipient : Option Addr} {amount : Option Nat}
    (h : Vesting.claim s env info recipient amount = .ok (s', msgs)) : SameAuthority s s' := by
  unfold Vesting.claim at h
  simp only [bind_eq_ok] at h
  obtain ⟨_, -, _, -, _, -, _, -, h⟩ := h
  split at h
  · simp only [Except.ok.injEq, Prod.mk.injEq] at h
    obtain ⟨rfl, -⟩ := h
    exact .refl s
  · simp only [bind_eq_ok, Except.ok.injEq, Prod.mk.injEq] at h
    obtain ⟨_, -, _, -, _, -, rfl, -⟩ := h
    exact ⟨rfl, rfl, rfl⟩

theorem registerVestingAccounts {vestingAccounts : List VestingAccount} {amount height : Nat}
    (h : Vesting.registerVestingAccounts s vestingAccounts amount height = .ok s') :
    SameAuthority s s' := by
  unfold Vesting.registerVestingAccounts at h
  simp only [bind_eq_ok] at h
  obtain ⟨⟨toDeposit, t⟩, hloop, _, -, htotal⟩ := h
  have hloop : SameAuthority s t := by
    refine foldlM_invariant (fun st : Nat × Storage => SameAuthority s st.2) (.refl s) ?_ hloop
    intro st st' account _ hst hround
    unfold registerAccount at hround
    simp only [bind_eq_ok, Except.ok.injEq] at hround
    obtain ⟨_, -, _, -, rfl⟩ := hround
    exact hst.trans ⟨rfl, rfl, rfl⟩
  unfold grantTotal at htotal
  simp only [bind_eq_ok, Except.ok.injEq] at htotal
  obtain ⟨_, -, rfl⟩ := htotal
  exact hloop.trans ⟨rfl, rfl, rfl⟩

theorem removeVestingAccounts {vestingAccounts : List Addr} {clawbackAccount : Addr}
    (h : Vesting.removeVestingAccounts s env info vestingAccounts clawbackAccount =
      .ok (s', msgs)) : SameAuthority s s' := by
  unfold Vesting.removeVestingAccounts at h
  simp only [bind_eq_ok] at h
  obtain ⟨_, -, _, -, hloop⟩ := h
  refine foldlM_invariant (fun st : Storage × List TransferMsg => SameAuthority s st.1)
    (.refl s) ?_ hloop
  intro st st' address _ hst hround
  unfold removeAccount at hround
  split at hround
  · obtain rfl := Except.ok.inj hround
    exact hst
  · simp only [bind_eq_ok, Except.ok.injEq] at hround
    obtain ⟨_, -, _, -, _, -, _, -, _, -, rfl⟩ := hround
    exact hst.trans ⟨rfl, rfl, rfl⟩

end SameAuthority

/-- The owner alone decides who gets power. -/
theorem Storage.Powerless.execute {msg : ExecuteMsg} (h : s.Powerless outsider)
    (hnames : ∀ a ∈ msg.names, ¬ outsider a)
    (hexec : Vesting.execute s env info msg = .ok (s', msgs)) : s'.Powerless outsider := by
  cases msg with
  | claim recipient amount => exact (SameAuthority.claim hexec).powerless h
  | receive msg =>
      simp only [Vesting.execute, receiveCw20, bind_eq_ok] at hexec
      obtain ⟨_, -, _, -, hook, -, hexec⟩ := hexec
      cases hook with
      | registerVestingAccounts vestingAccounts =>
          simp only [Except.ok.injEq, Prod.mk.injEq] at hexec
          obtain ⟨_, hregister, rfl, -⟩ := hexec
          exact (SameAuthority.registerVestingAccounts hregister).powerless h
  | registerVestingAccounts vestingAccounts =>
      simp only [Vesting.execute, registerWithCoins, bind_eq_ok] at hexec
      obtain ⟨token, -, hexec⟩ := hexec
      cases token with
      | token contractAddr => cases hexec
      | nativeToken denom =>
          simp only [bind_eq_ok, Except.ok.injEq, Prod.mk.injEq] at hexec
          obtain ⟨_, -, _, -, _, hregister, rfl, -⟩ := hexec
          exact (SameAuthority.registerVestingAccounts hregister).powerless h
  | proposeNewOwner owner expiresIn =>
      simp only [Vesting.execute, bind_eq_ok, mapError_eq_ok, Except.ok.injEq,
        Prod.mk.injEq] at hexec
      obtain ⟨p, hpropose, rfl, -⟩ := hexec
      refine ⟨h.owner, h.tokenInfoManager, h.vestingManagers, fun p' hp' => ?_⟩
      obtain rfl := Option.some.inj hp'
      -- an address is compared as it stands: validation does not change it
      have howner : p.owner = owner := by
        simp only [proposeNewOwner, addrValidateToLower, bind_eq_ok, Except.ok.injEq] at hpropose
        obtain ⟨_, -, _, ⟨_, -, rfl⟩, _, -, _, -, _, -, rfl⟩ := hpropose
        rfl
      rw [howner]
      exact hnames owner (List.mem_singleton_self owner)
  | dropOwnershipProposal =>
      simp only [Vesting.execute, bind_eq_ok, Except.ok.injEq, Prod.mk.injEq] at hexec
      obtain ⟨_, -, rfl, -⟩ := hexec
      exact ⟨h.owner, h.tokenInfoManager, h.vestingManagers, fun p hp => by cases hp⟩
  | claimOwnership =>
      simp only [Vesting.execute, claimOwnership, bind_eq_ok, mapError_eq_ok, okOr_eq_ok,
        Except.ok.injEq, Prod.mk.injEq] at hexec
      obtain ⟨_, ⟨p, hp, _, -, _, -, rfl⟩, rfl, -⟩ := hexec
      exact ⟨h.ownershipProposal p hp, h.tokenInfoManager, h.vestingManagers,
        fun p hp => by cases hp⟩
  | setVestingToken vestingToken =>
      simp only [Vesting.execute, setVestingToken, bind_eq_ok, Except.ok.injEq,
        Prod.mk.injEq] at hexec
      obtain ⟨_, -, _, -, _, -, rfl, -⟩ := hexec
      exact ⟨h.owner, h.tokenInfoManager, h.vestingManagers, h.ownershipProposal⟩
  | managedExtension msg =>
      simp only [Vesting.execute, handleExecuteManagedMsg, bind_eq_ok] at hexec
      obtain ⟨_, -, hexec⟩ := hexec
      cases msg with
      | removeVestingAccounts vestingAccounts clawbackAccount =>
          exact (SameAuthority.removeVestingAccounts hexec).powerless h
  | withManagersExtension msg =>
      simp only [Vesting.execute, handleExecuteWithManagersMsg, bind_eq_ok] at hexec
      obtain ⟨_, -, _, -, hexec⟩ := hexec
      cases msg with
      | addVestingManagers managers =>
          simp only [Except.ok.injEq, Prod.mk.injEq] at hexec
          obtain ⟨rfl, -⟩ := hexec
          refine ⟨h.owner, h.tokenInfoManager, fun a ha => ?_, h.ownershipProposal⟩
          rcases has_addManagers ha with hold | hmem
          · exact h.vestingManagers a hold
          · exact hnames a hmem
      | removeVestingManagers managers =>
          simp only [Except.ok.injEq, Prod.mk.injEq] at hexec
          obtain ⟨rfl, -⟩ := hexec
          exact ⟨h.owner, h.tokenInfoManager,
            fun a ha => h.vestingManagers a (has_removeManagers ha), h.ownershipProposal⟩

/-! ### The hand-over of the ownership -/

/-- The owner and the proposal of another one, if there is one. -/
def Storage.ownership (s : Storage) : Ownership := ⟨s.config.owner, s.ownershipProposal⟩

theorem SameAuthority.ownership (h : SameAuthority s s') : s'.ownership = s.ownership := by
  unfold Storage.ownership
  rw [h.config, h.ownershipProposal]

/-- The message about the ownership that a message is, if it is one. -/
def ExecuteMsg.ownership : ExecuteMsg → Option OwnershipMsg
  | .proposeNewOwner owner expiresIn => some (.proposeNewOwner owner expiresIn)
  | .dropOwnershipProposal => some .dropOwnershipProposal
  | .claimOwnership => some .claimOwnership
  | _ => none

/-- Three messages are handled by the shared functions, and the others leave the ownership
alone. -/
theorem execute_ownership {msg : ExecuteMsg} (h : execute s env info msg = .ok (s', msgs)) :
    s.ownership.Obeys info env msg.ownership s'.ownership := by
  cases msg with
  | claim recipient amount => exact (SameAuthority.claim h).ownership
  | receive msg =>
      simp only [execute, receiveCw20, bind_eq_ok] at h
      obtain ⟨_, -, _, -, hook, -, h⟩ := h
      cases hook with
      | registerVestingAccounts vestingAccounts =>
          simp only [Except.ok.injEq, Prod.mk.injEq] at h
          obtain ⟨_, hregister, rfl, -⟩ := h
          exact (SameAuthority.registerVestingAccounts hregister).ownership
  | registerVestingAccounts vestingAccounts =>
      simp only [execute, registerWithCoins, bind_eq_ok] at h
      obtain ⟨token, -, h⟩ := h
      cases token with
      | token contractAddr => cases h
      | nativeToken denom =>
          simp only [bind_eq_ok, Except.ok.injEq, Prod.mk.injEq] at h
          obtain ⟨_, -, _, -, _, hregister, rfl, -⟩ := h
          exact (SameAuthority.registerVestingAccounts hregister).ownership
  | proposeNewOwner owner expiresIn =>
      simp only [execute, bind_eq_ok, mapError_eq_ok, Except.ok.injEq, Prod.mk.injEq] at h
      obtain ⟨p, hpropose, rfl, -⟩ := h
      exact bind_eq_ok.mpr ⟨p, hpropose, rfl⟩
  | dropOwnershipProposal =>
      simp only [execute, bind_eq_ok, mapError_eq_ok, Except.ok.injEq, Prod.mk.injEq] at h
      obtain ⟨_, hdrop, rfl, -⟩ := h
      exact bind_eq_ok.mpr ⟨_, hdrop, rfl⟩
  | claimOwnership =>
      simp only [execute, bind_eq_ok, mapError_eq_ok, Except.ok.injEq, Prod.mk.injEq] at h
      obtain ⟨owner, hclaim, rfl, -⟩ := h
      exact bind_eq_ok.mpr ⟨owner, hclaim, rfl⟩
  | setVestingToken vestingToken =>
      simp only [execute, setVestingToken, bind_eq_ok, Except.ok.injEq, Prod.mk.injEq] at h
      obtain ⟨_, -, _, -, _, -, rfl, -⟩ := h
      rfl
  | managedExtension msg =>
      simp only [execute, handleExecuteManagedMsg, bind_eq_ok] at h
      obtain ⟨_, -, h⟩ := h
      cases msg with
      | removeVestingAccounts vestingAccounts clawbackAccount =>
          exact (SameAuthority.removeVestingAccounts h).ownership
  | withManagersExtension msg =>
      simp only [execute, handleExecuteWithManagersMsg, bind_eq_ok] at h
      obtain ⟨_, -, _, -, h⟩ := h
      cases msg with
      | addVestingManagers managers =>
          simp only [Except.ok.injEq, Prod.mk.injEq] at h
          obtain ⟨rfl, -⟩ := h
          rfl
      | removeVestingManagers managers =>
          simp only [Except.ok.injEq, Prod.mk.injEq] at h
          obtain ⟨rfl, -⟩ := h
          rfl

theorem payOuts_frame {accepts : TransferMsg → Bool} {w w' : World}
    (h : msgs.foldlM (World.payOut accepts) w = .ok w') :
    w'.storage = w.storage ∧ w'.env = w.env ∧ w'.claimed = w.claimed := by
  refine foldlM_invariant (fun v : World =>
    v.storage = w.storage ∧ v.env = w.env ∧ v.claimed = w.claimed) ⟨rfl, rfl, rfl⟩ ?_ h
  rintro v v' m - ⟨hstorage, henv, hclaimed⟩ hpay
  obtain ⟨hstorage', henv', hclaimed', -⟩ := payOut_ok hpay
  exact ⟨hstorage'.trans hstorage, henv'.trans henv, hclaimed'.trans hclaimed⟩

/-- What a transaction says about the ownership. -/
def Action.ownershipEvent (w : World) : Action → Option OwnershipEvent
  | .execute info msg => msg.ownership.map (OwnershipMsg.event info.sender w.env.time)
  | _ => none

theorem call_ownership {accepts : TransferMsg → Bool} {w w' : World} {msg : ExecuteMsg}
    (h : w.call accepts info msg = .ok w') :
    w'.env = w.env ∧
      w.storage.ownership.Obeys info w.env msg.ownership w'.storage.ownership := by
  unfold World.call at h
  rw [bind_eq_ok] at h
  obtain ⟨⟨s', msgs⟩, hexec, hrun⟩ := h
  obtain ⟨hstorage, henv, -⟩ := payOuts_frame hrun
  rw [hstorage]
  exact ⟨henv, execute_ownership hexec⟩

theorem exec_ownership {accepts : TransferMsg → Bool} {w w' : World} {a : Action}
    (h : w.exec accepts a = .ok w') :
    w.env.time ≤ w'.env.time ∧
      w.storage.ownership.Moves w.env.time (a.ownershipEvent w) w'.storage.ownership := by
  cases a with
  | advance seconds blocks =>
      obtain rfl := Except.ok.inj h
      exact ⟨Nat.le_add_right _ _, rfl⟩
  | transfer asset amount =>
      obtain rfl := Except.ok.inj h
      exact ⟨le_refl _, rfl⟩
  | send token sender amount hook =>
      obtain ⟨henv, hsame⟩ := call_ownership
        (show (w.credit (.token token) amount).call accepts ⟨token, []⟩
          (.receive ⟨sender, amount, hook⟩) = .ok w' from h)
      exact ⟨by rw [henv]; exact le_refl _, hsame⟩
  | execute info msg =>
      simp only [World.exec, bind_eq_ok] at h
      obtain ⟨_, -, hcall⟩ := h
      obtain ⟨hstorage, henv, -⟩ := creditCoins_frame info.funds w
      obtain ⟨hkept, hobeys⟩ := call_ownership hcall
      rw [hstorage, henv] at hobeys
      exact ⟨by rw [hkept, henv], hobeys.moves⟩

theorem handsOver (accepts : TransferMsg → Bool) :
    HandsOver (World.exec accepts) (fun w => w.storage.ownership) (fun w => w.env.time)
      fun w a => a.ownershipEvent w where
  clock_le _ _ _ h := (exec_ownership h).1
  moves _ _ _ h := (exec_ownership h).2

/-- In every run of a vesting contract the ownership is handed over properly. -/
theorem ownership_handed_over (accepts : TransferMsg → Bool) (b : VestingBaseBuilder)
    (owner tokenInfoManager : Addr) (env : Env) (held : AssetInfo → Nat) (as : List Action) :
    let start := World.start b owner tokenInfoManager env held
    let record := ownershipRecord (World.exec accepts) (fun w a => a.ownershipEvent w) start as
    Throughout (Proper owner) record ∧
      (run (World.exec accepts) start as).storage.config.owner = ownerAfter owner record :=
  (handsOver accepts).run as rfl

end NeutronTge.Vesting
