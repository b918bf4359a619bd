import NeutronTge.Auction.Handover
import NeutronTge.Auction.Queries
import NeutronTge.Vesting.Availability

/-!
# NeutronTge.Composed.VestedLp

The LP tokens that the auction reports for a user and that he has not locked reach him through
the vesting contracts. `MigrateToVesting` sends each pool's tokens to its vesting contract with
the accounts to register, in one transaction, so a user is marked as vested only when the
contract has his schedule. From then on nobody can take it away: the report is final, the account
is kept, and after the vesting duration a claim pays all of it.
-/

namespace NeutronTge.VestedLp

open CosmWasm Astroport
open Lockdrop (PoolType)
open Vesting (VestingAccount VestingSchedule)

/-- The contracts around the auction and the vesting contracts, with one state. -/
structure Outside (F : Type) where
  /-- The address of the auction. -/
  auction : Addr
  tokenBalance : F → Addr → Except StdError Nat
  getRate : F → Addr → Except StdError (List Auction.PriceFeedRate)
  exec : F → Auction.CosmosMsg → Except StdError F
  /-- The transfers that the LP tokens carry out. -/
  accepts : TransferMsg → Bool

/-- The others, and the vesting contract of each pool. -/
structure Around (F : Type) where
  others : F
  vesting : PoolType → Vesting.World

/-- The auction's world, with the vesting contracts around it. -/
abbrev World (F : Type) := Auction.World (Around F)

variable {F : Type}

namespace Around

/-- The pool whose vesting contract has an address. -/
def poolAt (e : Around F) (contract : Addr) : Option PoolType :=
  if contract = (e.vesting .usdc).env.contract then some .usdc
  else if contract = (e.vesting .atom).env.contract then some .atom
  else none

/-- A vesting contract executes something. -/
def serve (accepts : TransferMsg → Bool) (e : Around F) (p : PoolType)
    (a : Vesting.Action) : Except StdError (Around F) := do
  let v ← ((e.vesting p).exec accepts a).mapError fun _ => .aborted
  .ok { e with vesting := Function.update e.vesting p v }

end Around

section Exec

variable (o : Outside F)

/-- Execute a message of the auction: the others notice it, and the LP tokens that are sent to a
vesting contract arrive with their accounts. -/
def deliver (e : Around F) (msg : Auction.CosmosMsg) : Except StdError (Around F) := do
  let others ← o.exec e.others msg
  let e := { e with others := others }
  match msg with
  | .lpSend lpToken contract amount (.registerVestingAccounts vestingAccounts) =>
      match e.poolAt contract with
      | some p =>
          e.serve o.accepts p
            (.send lpToken o.auction amount (some (.registerVestingAccounts vestingAccounts)))
      | none => .ok e
  | _ => .ok e

/-- The other contracts as the auction sees them. -/
def Outside.externals : Auction.Externals (Around F) where
  tokenBalance e := o.tokenBalance e.others
  getRate e := o.getRate e.others
  exec := deliver o

/-- What happens in a run of the auction with its vesting contracts. -/
inductive Action (F : Type)
  /-- Time passes. -/
  | advance (seconds blocks : Nat)
  /-- The others change by themselves. -/
  | drift (others : F)
  /-- Somebody sends coins to the auction. -/
  | donate (coins : List Coin)
  | auction (info : MessageInfo) (msg : Auction.ExecuteMsg)
  /-- Somebody sends tokens to a vesting contract, with or without a payload. -/
  | transfer (p : PoolType) (asset : AssetInfo) (amount : Nat)
  | send (p : PoolType) (token sender : Addr) (amount : Nat) (msg : Option Vesting.Cw20HookMsg)
  | vesting (p : PoolType) (info : MessageInfo) (msg : Vesting.ExecuteMsg)

/-- One action of a run. -/
def exec (w : World F) : Action F → Except StdError (World F)
  | .advance seconds blocks => do
      let usdc ← w.ext.serve o.accepts .usdc (.advance seconds blocks)
      let both ← usdc.serve o.accepts .atom (.advance seconds blocks)
      Auction.World.exec o.externals { w with ext := both } (.advance seconds blocks)
  | .drift others => .ok { w with ext := { w.ext with others := others } }
  | .donate coins => Auction.World.exec o.externals w (.donate coins)
  | .auction info msg => Auction.World.exec o.externals w (.execute info msg)
  | .transfer p asset amount => do
      let ext ← w.ext.serve o.accepts p (.transfer asset amount)
      .ok { w with ext := ext }
  | .send p token sender amount msg => do
      let ext ← w.ext.serve o.accepts p (.send token sender amount msg)
      .ok { w with ext := ext }
  | .vesting p info msg => do
      let ext ← w.ext.serve o.accepts p (.execute info msg)
      .ok { w with ext := ext }

end Exec

/-- The vesting contract of a pool that the auction knows. -/
def vestingAddress (config : Auction.Config) : PoolType → Addr
  | .usdc => config.vestingUsdcContractAddress
  | .atom => config.vestingAtomContractAddress

/-- The contracts right after they were created: the auction knows its vesting contracts, and
they are not managed. -/
structure Started (w : World F) : Prop where
  auction : Auction.Started w
  vesting : ∀ p, ∃ b owner tokenInfoManager env held, b.managed = false ∧
    env.time = w.env.time ∧ env.contract = vestingAddress w.storage.config p ∧
      w.ext.vesting p = Vesting.World.start b owner tokenInfoManager env held
  apart : w.storage.config.vestingUsdcContractAddress ≠ w.storage.config.vestingAtomContractAddress

variable {o : Outside F} {w w' : World F} {e e' : Around F}

/-! ### What the vesting contracts keep -/

/-- A vesting contract in a state of a run, at the time and the address that the auction knows. -/
structure Sound (v : Vesting.World) (time : Nat) (address : Addr) : Prop where
  inv : v.Inv
  unmanaged : v.storage.config.extensions.managed = false
  time_eq : v.env.time = time
  address_eq : v.env.contract = address

/-- Whatever it does, it stays sound and keeps its accounts. -/
theorem Sound.exec {v v' : Vesting.World} {time : Nat} {address : Addr} {a : Vesting.Action}
    (h : Sound v time address) (hexec : v.exec o.accepts a = .ok v') :
    Sound v' (time + a.seconds) address ∧ ∀ u, Vesting.Kept u v v' := by
  obtain ⟨hcontract, htime, hextensions⟩ := Vesting.exec_frame hexec
  refine ⟨⟨h.inv.exec hexec, ?_, ?_, hcontract.trans h.address_eq⟩, fun u => ?_⟩
  · rw [hextensions]
    exact h.unmanaged
  · rw [htime, h.time_eq]
  · refine Vesting.Kept.exec (fun hmanaged => ?_) hexec
    rw [h.unmanaged] at hmanaged
    cases hmanaged

/-- Both vesting contracts are sound, and they are two. -/
structure BothSound (e : Around F) (time : Nat) (address : PoolType → Addr) : Prop where
  sound : ∀ p, Sound (e.vesting p) time (address p)
  apart : address .usdc ≠ address .atom

/-- The accounts of both stay. -/
def BothKept (e e' : Around F) : Prop := ∀ p u, Vesting.Kept u (e.vesting p) (e'.vesting p)

theorem BothKept.refl (e : Around F) : BothKept e e := fun p u => .refl u (e.vesting p)

theorem BothKept.trans {e'' : Around F} (h : BothKept e e') (h' : BothKept e' e'') :
    BothKept e e'' := fun p u => (h p u).trans (h' p u)

variable {time : Nat} {address : PoolType → Addr}

theorem serve_ok {p : PoolType} {a : Vesting.Action} (h : e.serve o.accepts p a = .ok e') :
    ∃ v, (e.vesting p).exec o.accepts a = .ok v ∧
      e' = { e with vesting := Function.update e.vesting p v } := by
  simp only [Around.serve, bind_eq_ok, mapError_eq_ok, Except.ok.injEq] at h
  obtain ⟨v, hv, rfl⟩ := h
  exact ⟨v, hv, rfl⟩

/-- Something that takes no time. -/
theorem BothSound.serve {p : PoolType} {a : Vesting.Action} (h : BothSound e time address)
    (ha : a.seconds = 0) (hserve : e.serve o.accepts p a = .ok e') :
    BothSound e' time address ∧ BothKept e e' := by
  obtain ⟨v, hv, rfl⟩ := serve_ok hserve
  obtain ⟨hsound, hkept⟩ := (h.sound p).exec hv
  rw [ha, Nat.add_zero] at hsound
  refine ⟨⟨fun q => ?_, h.apart⟩, fun q u => ?_⟩
  · by_cases hq : q = p
    · obtain rfl := hq
      simpa using hsound
    · simpa [hq] using h.sound q
  · by_cases hq : q = p
    · obtain rfl := hq
      simpa using hkept u
    · simpa [hq] using Vesting.Kept.refl u (e.vesting q)

/-- Time passes for both. -/
theorem BothSound.advance {e₁ : Around F} {seconds blocks : Nat} (h : BothSound e time address)
    (husdc : e.serve o.accepts .usdc (.advance seconds blocks) = .ok e₁)
    (hatom : e₁.serve o.accepts .atom (.advance seconds blocks) = .ok e') :
    BothSound e' (time + seconds) address ∧ BothKept e e' := by
  obtain ⟨v, hv, rfl⟩ := serve_ok husdc
  obtain ⟨v', hv', rfl⟩ := serve_ok hatom
  dsimp only at hv'
  rw [Function.update_of_ne (by decide)] at hv'
  have hadvanced : ∀ p, Sound (Function.update (Function.update e.vesting .usdc v) .atom v' p)
      (time + seconds) (address p) ∧ ∀ u, Vesting.Kept u (e.vesting p)
        (Function.update (Function.update e.vesting .usdc v) .atom v' p) := by
    intro p
    cases p with
    | usdc =>
        rw [Function.update_of_ne (by decide), Function.update_self]
        exact (h.sound .usdc).exec hv
    | atom =>
        rw [Function.update_self]
        exact (h.sound .atom).exec hv'
  exact ⟨⟨fun p => (hadvanced p).1, h.apart⟩, fun p => (hadvanced p).2⟩

/-! ### What the auction sends them -/

theorem BothSound.poolAt (h : BothSound e time address) (p : PoolType) :
    e.poolAt (address p) = some p := by
  unfold Around.poolAt
  rw [(h.sound .usdc).address_eq, (h.sound .atom).address_eq]
  cases p with
  | usdc => rw [if_pos rfl]
  | atom => rw [if_neg h.apart.symm, if_pos rfl]

theorem BothSound.deliver {msg : Auction.CosmosMsg} (h : BothSound e time address)
    (hdeliver : deliver o e msg = .ok e') : BothSound e' time address ∧ BothKept e e' := by
  unfold VestedLp.deliver at hdeliver
  rw [bind_eq_ok] at hdeliver
  obtain ⟨others, -, hdeliver⟩ := hdeliver
  have hnoticed : BothSound { e with others := others } time address := ⟨h.sound, h.apart⟩
  have hquiet : (.ok { e with others := others } : Except StdError (Around F)) = .ok e' →
      BothSound e' time address ∧ BothKept e e' := by
    intro heq
    obtain rfl := Except.ok.inj heq
    exact ⟨hnoticed, .refl e⟩
  cases msg with
  | lpSend lpToken contract amount hook =>
      cases hook with
      | initializePool _ _ => exact hquiet hdeliver
      | registerVestingAccounts vestingAccounts =>
          dsimp only at hdeliver
          split at hdeliver
          · exact hnoticed.serve rfl hdeliver
          · exact hquiet hdeliver
  | _ => exact hquiet hdeliver

theorem BothSound.delivers {msgs : List Auction.CosmosMsg} (h : BothSound e time address)
    (hrun : msgs.foldlM (VestedLp.deliver o) e = .ok e') :
    BothSound e' time address ∧ BothKept e e' := by
  refine foldlM_invariant (fun e₁ : Around F => BothSound e₁ time address ∧ BothKept e e₁)
    ⟨h, .refl e⟩ ?_ hrun
  intro e₁ e₂ msg _ ⟨hsound, hkept⟩ hstep
  obtain ⟨hsound', hkept'⟩ := hsound.deliver hstep
  exact ⟨hsound', hkept.trans hkept'⟩

/-- The accounts of a pool reach its vesting contract. -/
theorem BothSound.registers {p : PoolType} {lpToken : Addr} {amount : Nat}
    {vestingAccounts : List VestingAccount} (h : BothSound e time address)
    (hrun : (Auction.vestingMsg lpToken (address p) amount vestingAccounts).foldlM
      (VestedLp.deliver o) e = .ok e') (hamount : amount ≠ 0) {account : VestingAccount}
    (haccount : account ∈ vestingAccounts) {sch : VestingSchedule}
    (hsch : sch ∈ account.schedules) :
    (e'.vesting p).storage.Holds account.address sch := by
  unfold Auction.vestingMsg at hrun
  rw [if_neg hamount] at hrun
  replace hrun := foldlM_singleton_ok.mp hrun
  unfold VestedLp.deliver at hrun
  rw [bind_eq_ok] at hrun
  obtain ⟨others, -, hrun⟩ := hrun
  have hnoticed : BothSound { e with others := others } time address := ⟨h.sound, h.apart⟩
  dsimp only at hrun
  rw [hnoticed.poolAt p] at hrun
  obtain ⟨v, hv, rfl⟩ := serve_ok hrun
  dsimp only
  rw [Function.update_self]
  exact Vesting.send_holds hv haccount hsch

/-! ### The hand-over -/

/-- The schedule of what vests for a user who was vested at `t`. -/
def schedule (config : Auction.Config) (t amount : Nat) : VestingSchedule :=
  ⟨⟨t, 0⟩, some ⟨t + config.vestingLpDuration, amount⟩⟩

/-- The vesting contracts have the schedules of a user, for every pool in which something vests. -/
def Registered (w : World F) (u : Addr) : Prop :=
  ∃ t ≤ w.env.time, ∀ p, Auction.vestAmount p (w.storage.user u) w.storage.state ≠ 0 →
    (w.ext.vesting p).storage.Holds u (schedule w.storage.config t
      (Auction.vestAmount p (w.storage.user u) w.storage.state))

theorem Registered.mono {u : Addr} (h : Registered w u)
    (huser : w'.storage.user u = w.storage.user u) (hstate : w'.storage.state = w.storage.state)
    (hduration : w'.storage.config.vestingLpDuration = w.storage.config.vestingLpDuration)
    (htime : w.env.time ≤ w'.env.time) (hkept : BothKept w.ext w'.ext) : Registered w' u := by
  obtain ⟨t, ht, hholds⟩ := h
  refine ⟨t, ht.trans htime, fun p hp => ?_⟩
  rw [huser, hstate] at hp ⊢
  rw [schedule, hduration]
  exact (hkept p u).holds (hholds p hp)

/-- What holds in every state of such a run. -/
structure HandsOver (w : World F) : Prop where
  phased : Auction.Phased w
  both : BothSound w.ext w.env.time (vestingAddress w.storage.config)
  registered : ∀ u, (w.storage.user u).isVested = true → Registered w u

/-- The messages of a transaction are executed one after the other. -/
theorem execute_delivers {info : MessageInfo} {msg : Auction.ExecuteMsg}
    (h : Auction.World.execute o.externals w info msg = .ok w') :
    ∃ msgs, w'.trace = w.trace ++ msgs ∧ msgs.foldlM (VestedLp.deliver o) w.ext = .ok w'.ext := by
  rcases Auction.execute_cases h with ⟨msgs, hresponds, -⟩ | ⟨-, w₁, _, _, _, _, _, _, provide₁,
    provide₂, msgs, hinit⟩
  · exact ⟨msgs, hresponds.trace, hresponds.exec⟩
  · refine ⟨provide₁ :: provide₂ :: msgs, hinit.trace, ?_⟩
    exact foldlM_append_ok.mpr ⟨w₁.ext, hinit.exec₁, hinit.exec⟩

/-- No message of the auction changes its vesting contracts. -/
theorem execute_vestingAddress {info : MessageInfo} {msg : Auction.ExecuteMsg}
    (h : Auction.World.execute o.externals w info msg = .ok w') :
    vestingAddress w'.storage.config = vestingAddress w.storage.config := by
  obtain ⟨r, hr, hrun, -⟩ := Auction.execute_ok h
  rcases Auction.execute_cases h with ⟨msgs, hresponds, hne⟩ | ⟨-, _, _, _, _, _, _, _, _, _, _,
    hinit⟩
  · have heffect := hresponds.effect
    cases heffect with
    | configure _ hconfigures =>
        cases msg with
        | updateConfig newConfig =>
            simp only [Auction.execute, Auction.executeUpdateConfig, bind_eq_ok,
              Except.ok.injEq] at hr
            obtain ⟨_, -, rfl⟩ := hr
            obtain rfl := Except.ok.inj hrun
            rfl
        | setTokenInfo usdcDenom atomDenom poolInfo =>
            simp only [Auction.execute, Auction.executeSetTokenInfo, bind_eq_ok,
              Except.ok.injEq] at hr
            obtain ⟨_, -, rfl⟩ := hr
            obtain rfl := Except.ok.inj hrun
            rfl
        | _ => cases hconfigures
    | deposit _ _ _ _ _ hdeposits => rw [hdeposits.storage]
    | withdraw _ _ _ _ _ _ hwithdraws => rw [hwithdraws.storage]
    | size _ _ _ _ _ _ _ _ _ hsizes => rw [hsizes.storage]
    | initPool => exact absurd rfl hne
    | lock _ _ _ _ _ hlocks => rw [hlocks.storage]
    | unlock _ _ _ _ _ hunlocks => rw [hunlocks.storage]
    | vest _ _ hvests => rw [hvests.storage]
  · rw [hinit.finalizes.storage]

/-- The users of a batch have their schedules when the batch was sent. -/
theorem BothSound.vests {s s' : Auction.Storage} {env : Env} {msgs : List Auction.CosmosMsg}
    {entries : List (Addr × Auction.UserInfo)} {poolInfo : Auction.PoolInfo}
    (h : BothSound e time (vestingAddress s.config))
    (hvests : Auction.Vests s s' env msgs entries poolInfo)
    (hrun : msgs.foldlM (VestedLp.deliver o) e = .ok e') {u : Addr} {user : Auction.UserInfo}
    (hu : (u, user) ∈ entries) {p : PoolType} (hp : Auction.vestAmount p user s.state ≠ 0) :
    (e'.vesting p).storage.Holds u
      (schedule s.config env.time (Auction.vestAmount p user s.state)) := by
  have haccount : (⟨u, [schedule s.config env.time (Auction.vestAmount p user s.state)]⟩ :
      VestingAccount) ∈ Auction.batchAccounts p s env entries := by
    refine List.mem_flatMap.mpr ⟨_, hu, ?_⟩
    unfold Auction.vestingAccounts
    rw [if_neg hp]
    exact List.mem_singleton_self _
  have hamount : Auction.batchAmount p s entries ≠ 0 := by
    intro hzero
    rw [Auction.batchAccounts_eq_nil hzero] at haccount
    cases haccount
  rw [hvests.messages] at hrun
  obtain ⟨e₁, hatom, husdc⟩ := foldlM_append_ok.mp hrun
  obtain ⟨hsound₁, -⟩ := h.delivers hatom
  obtain ⟨-, hkept⟩ := hsound₁.delivers husdc
  have hsch := List.mem_singleton_self
    (schedule s.config env.time (Auction.vestAmount p user s.state))
  cases p with
  | atom => exact (hkept .atom u).holds (h.registers hatom hamount haccount hsch)
  | usdc => exact hsound₁.registers husdc hamount haccount hsch

theorem HandsOver.execute {info : MessageInfo} {msg : Auction.ExecuteMsg} (h : HandsOver w)
    (hexec : Auction.World.execute o.externals w info msg = .ok w') : HandsOver w' := by
  obtain ⟨hterms, henv⟩ := Auction.World.execute_terms hexec
  obtain ⟨msgs, htrace, hrun⟩ := execute_delivers hexec
  obtain ⟨hsound, hkept⟩ := h.both.delivers hrun
  have hphased := h.phased.execute hexec
  refine ⟨hphased, ?_, fun u hu => ?_⟩
  · rw [henv, execute_vestingAddress hexec]
    exact hsound
  · have hduration := hterms.vestingLpDuration
    by_cases hunminted : w.storage.Unminted
    · -- nobody is vested before the pools are made, nor by making them
      obtain ⟨-, hopen⟩ := h.phased.before hunminted
      rcases Auction.execute_cases hexec with ⟨_, hresponds, hmsg⟩ | ⟨-, _, _, _, _, _, _, _, _, _,
        _, hinit⟩
      · rw [(h.phased.unvested hunminted hresponds hmsg).1] at hu
        cases hu
      · have hsame : w'.storage.user u = w.storage.user u := by
          rw [hinit.finalizes.storage]
          rfl
        rw [hsame, hopen] at hu
        cases hu
    · rcases h.phased.vests hunminted hexec with ⟨-, hconf, -⟩ | ⟨-, msgs', entries, poolInfo,
        hvests, htrace'⟩
      · have hsame : w'.storage.user u = w.storage.user u := by
          rw [Auction.Storage.user, hconf.users]
          rfl
        rw [hsame] at hu
        exact (h.registered u hu).mono hsame hconf.state hduration (by rw [henv]) hkept
      · obtain rfl := List.append_cancel_left (htrace.symm.trans htrace')
        have hstate : w'.storage.state = w.storage.state := by rw [hvests.storage]
        rcases hvests.user u with ⟨user, hmem, -, -, hmarked⟩ | ⟨-, hsame⟩
        · refine ⟨w.env.time, by rw [henv], fun p hp => ?_⟩
          rw [hmarked, hstate, Auction.vestAmount_isVested] at hp ⊢
          rw [schedule, hduration]
          exact h.both.vests hvests hrun hmem hp
        · rw [hsame] at hu
          exact (h.registered u hu).mono hsame hstate hduration (by rw [henv]) hkept

/-- Something happens around the auction that takes no time. -/
theorem HandsOver.around (o : Outside F) {ext : Around F} (h : HandsOver w)
    (hboth : BothSound ext w.env.time (vestingAddress w.storage.config))
    (hkept : BothKept w.ext ext) : HandsOver { w with ext := ext } where
  phased := h.phased.exec (x := o.externals) (a := .drift ext) rfl
  both := hboth
  registered u hu := (h.registered u hu).mono rfl rfl rfl le_rfl hkept

theorem HandsOver.exec {a : Action F} (h : HandsOver w) (hexec : VestedLp.exec o w a = .ok w') :
    HandsOver w' := by
  cases a with
  | advance seconds blocks =>
      simp only [VestedLp.exec, bind_eq_ok] at hexec
      obtain ⟨e₁, husdc, e₂, hatom, hexec⟩ := hexec
      obtain ⟨hboth, hkept⟩ := h.both.advance husdc hatom
      have hdrift := h.phased.exec (x := o.externals) (a := .drift e₂) rfl
      obtain rfl := Except.ok.inj hexec
      refine ⟨hdrift.exec (x := o.externals) (a := .advance seconds blocks) rfl, hboth,
        fun u hu => ?_⟩
      exact (h.registered u hu).mono rfl rfl rfl (Nat.le_add_right _ _) hkept
  | drift others =>
      obtain rfl := Except.ok.inj hexec
      exact h.around o ⟨h.both.sound, h.both.apart⟩ (.refl w.ext)
  | donate coins =>
      obtain rfl := Except.ok.inj hexec
      have hphased := h.phased.exec (x := o.externals) (a := .donate coins) rfl
      exact ⟨hphased, h.both, h.registered⟩
  | auction info msg => exact h.execute hexec
  | transfer p asset amount =>
      simp only [VestedLp.exec, bind_eq_ok, Except.ok.injEq] at hexec
      obtain ⟨ext, hserve, rfl⟩ := hexec
      obtain ⟨hboth, hkept⟩ := h.both.serve rfl hserve
      exact h.around o hboth hkept
  | send p token sender amount msg =>
      simp only [VestedLp.exec, bind_eq_ok, Except.ok.injEq] at hexec
      obtain ⟨ext, hserve, rfl⟩ := hexec
      obtain ⟨hboth, hkept⟩ := h.both.serve rfl hserve
      exact h.around o hboth hkept
  | vesting p info msg =>
      simp only [VestedLp.exec, bind_eq_ok, Except.ok.injEq] at hexec
      obtain ⟨ext, hserve, rfl⟩ := hexec
      obtain ⟨hboth, hkept⟩ := h.both.serve rfl hserve
      exact h.around o hboth hkept

theorem Started.handsOver (h : Started w) (hwindow : 0 < w.storage.config.withdrawalWindow) :
    HandsOver w := by
  have hfresh := Auction.Fresh.of_started h.auction
  refine ⟨hfresh.phased hwindow, ⟨fun p => ?_, h.apart⟩, fun u hu => ?_⟩
  · obtain ⟨b, owner, tokenInfoManager, env, held, hunmanaged, htime, hcontract, hvesting⟩ :=
      h.vesting p
    rw [hvesting]
    exact ⟨.start b owner tokenInfoManager env held, hunmanaged, htime, hcontract⟩
  · rw [hfresh.user] at hu
    cases hu

theorem HandsOver.run (h : HandsOver w) (as : List (Action F)) :
    HandsOver (run (VestedLp.exec o) w as) :=
  run_invariant HandsOver (fun _ _ _ => HandsOver.exec) h

/-! ### The result -/

/-- What is vested is final, and so are the reports. -/
structure Final (w w' : World F) : Prop where
  storage : Auction.Final w.storage w'.storage
  duration : w'.storage.config.vestingLpDuration = w.storage.config.vestingLpDuration
  kept : BothKept w.ext w'.ext

namespace Final

theorem refl (w : World F) : Final w w := ⟨.refl w.storage, rfl, .refl w.ext⟩

theorem trans {w'' : World F} (h : Final w w') (h' : Final w' w'') : Final w w'' :=
  ⟨h.storage.trans h'.storage, h'.duration.trans h.duration, h.kept.trans h'.kept⟩

theorem minted (h : Final w w') (hminted : ¬ w.storage.Unminted) : ¬ w'.storage.Unminted := by
  rw [Auction.Storage.Unminted, h.storage.state]
  exact hminted

end Final

theorem HandsOver.final {a : Action F} (h : HandsOver w) (hminted : ¬ w.storage.Unminted)
    (hexec : VestedLp.exec o w a = .ok w') : Final w w' := by
  cases a with
  | advance seconds blocks =>
      simp only [VestedLp.exec, bind_eq_ok] at hexec
      obtain ⟨e₁, husdc, e₂, hatom, hexec⟩ := hexec
      obtain rfl := Except.ok.inj hexec
      exact ⟨.refl _, rfl, (h.both.advance husdc hatom).2⟩
  | drift others =>
      obtain rfl := Except.ok.inj hexec
      exact ⟨.refl _, rfl, .refl w.ext⟩
  | donate coins =>
      obtain rfl := Except.ok.inj hexec
      exact ⟨.refl _, rfl, .refl w.ext⟩
  | auction info msg =>
      replace hexec : Auction.World.exec o.externals w (.execute info msg) = .ok w' := hexec
      obtain ⟨hterms, -⟩ := Auction.World.execute_terms hexec
      obtain ⟨msgs, -, hrun⟩ := execute_delivers hexec
      exact ⟨h.phased.final hminted hexec, hterms.vestingLpDuration, (h.both.delivers hrun).2⟩
  | transfer p asset amount =>
      simp only [VestedLp.exec, bind_eq_ok, Except.ok.injEq] at hexec
      obtain ⟨ext, hserve, rfl⟩ := hexec
      exact ⟨.refl _, rfl, (h.both.serve rfl hserve).2⟩
  | send p token sender amount msg =>
      simp only [VestedLp.exec, bind_eq_ok, Except.ok.injEq] at hexec
      obtain ⟨ext, hserve, rfl⟩ := hexec
      exact ⟨.refl _, rfl, (h.both.serve rfl hserve).2⟩
  | vesting p info msg =>
      simp only [VestedLp.exec, bind_eq_ok, Except.ok.injEq] at hexec
      obtain ⟨ext, hserve, rfl⟩ := hexec
      exact ⟨.refl _, rfl, (h.both.serve rfl hserve).2⟩

theorem HandsOver.run_final (h : HandsOver w) (hminted : ¬ w.storage.Unminted)
    (as : List (Action F)) : Final w (CosmWasm.run (VestedLp.exec o) w as) :=
  run_relation_along (P := fun _ _ => True) (fun w => HandsOver w ∧ ¬ w.storage.Unminted) Final
    Final.refl (fun _ _ _ => Final.trans)
    (fun _ _ _ ⟨h, hminted⟩ _ hexec => ⟨h.exec hexec, (h.final hminted hexec).minted hminted⟩)
    (fun _ _ _ ⟨h, hminted⟩ _ hexec => h.final hminted hexec) ⟨h, hminted⟩ along_true

/-- From the moment a user is vested the auction's report about him is final, and from the vesting
duration on he gets all that it reports and that is not locked, at the latest with one claim at
the vesting contract of the pool, whatever anybody does in between. -/
theorem reported_lp_claimable {w₀ : World F} (hstart : Started w₀)
    (hwindow : 0 < w₀.storage.config.withdrawalWindow) {before after : List (Action F)}
    {u : Addr} {r : Auction.UserInfoResponse}
    (hw : run (exec o) w₀ before = w) (hvested : (w.storage.user u).isVested = true)
    (hreport : Auction.queryUserInfo w.storage u = .ok r)
    (hw' : run (exec o) w after = w')
    (hlater : w.env.time + w.storage.config.vestingLpDuration ≤ w'.env.time)
    (hcaller : ∀ p, (w'.ext.vesting p).storage.config.vestingToken ≠ some (.token u))
    (haccepts : Vesting.AcceptsPositive o.accepts) :
    Auction.queryUserInfo w'.storage u = .ok r ∧ ∀ p, r.lpLocked p ≤ r.lpAmount p ∧
      r.lpAmount p - r.lpLocked p ≤ ((commit (exec o) w'
        (.vesting p ⟨u, []⟩ (.claim none none))).ext.vesting p).claimed u := by
  have hover : HandsOver w := hw ▸ (hstart.handsOver hwindow).run before
  have hover' : HandsOver w' := hw' ▸ hover.run after
  have hminted : ¬ w.storage.Unminted := by
    intro hunminted
    rw [(hover.phased.before hunminted).2] at hvested
    cases hvested
  have hfinal : Final w w' := hw' ▸ hover.run_final hminted after
  refine ⟨by rw [hfinal.storage.report, hreport], fun p => ?_⟩
  obtain ⟨hamount, hlocked⟩ := Auction.queryUserInfo_ok hreport p
  rw [hamount, hlocked]
  refine ⟨hover.phased.fits.locked p u, ?_⟩
  show Auction.vestAmount p (w.storage.user u) w.storage.state ≤ _
  by_cases hzero : Auction.vestAmount p (w.storage.user u) w.storage.state = 0
  · rw [hzero]
    exact Nat.zero_le _
  · obtain ⟨t, ht, hholds⟩ := hover.registered u hvested
    have hsound := hover'.both.sound p
    -- his schedule began when he was vested, so it is over by now
    have hends : (schedule w.storage.config t
        (Auction.vestAmount p (w.storage.user u) w.storage.state)).EndsBy
          (w'.ext.vesting p).env.time := by
      rw [hsound.time_eq]
      refine ⟨?_, fun endPoint hend => ?_⟩
      · exact ht.trans ((Nat.le_add_right _ _).trans hlater)
      · obtain rfl := Option.some.inj hend
        exact (Nat.add_le_add_right ht _).trans hlater
    obtain ⟨v, hv, hclaimed⟩ := hsound.inv.claim_ended ((hfinal.kept p u).holds (hholds p hzero))
      hends (hcaller p) haccepts none
    have hexec : exec o w' (.vesting p ⟨u, []⟩ (.claim none none)) =
        .ok { w' with
          ext := { w'.ext with vesting := Function.update w'.ext.vesting p v } } := by
      simp only [exec, Around.serve, bind_eq_ok, mapError_eq_ok, Except.ok.injEq]
      exact ⟨_, ⟨v, hv, rfl⟩, rfl⟩
    rw [commit_of_ok _ hexec]
    dsimp only
    rw [Function.update_self]
    exact hclaimed

/-! ### A sample run -/

/-- The auction is a manager of both vesting contracts. -/
def sampleVesting (p : PoolType) : Vesting.World :=
  .start ⟨["auction"], true, false, true⟩ "owner" "manager"
    ⟨10, 1, vestingAddress (Auction.sampleStart 10).storage.config p⟩ fun _ => 0

/-- The contracts other than these of the small chain. -/
def sampleOutside : Outside Auction.SampleExt where
  auction := "auction"
  tokenBalance := Auction.sampleExternals.tokenBalance
  getRate := Auction.sampleExternals.getRate
  exec := Auction.sampleExternals.exec
  accepts _ := true

/-- The auction and its vesting contracts right after `instantiate`. -/
def sampleStart : World Auction.SampleExt where
  storage := (Auction.sampleStart 10).storage
  bank _ := 0
  ext := ⟨⟨0, 0⟩, sampleVesting⟩
  env := ⟨10, 1, "auction"⟩
  trace := []

theorem sampleStart_started : Started sampleStart where
  auction := ⟨⟨⟨10, 1, "auction"⟩, ⟨"owner", []⟩, Auction.sampleInstantiateMsg 10, rfl, rfl⟩, rfl⟩
  vesting p := ⟨⟨["auction"], true, false, true⟩, "owner", "manager",
    ⟨10, 1, vestingAddress (Auction.sampleStart 10).storage.config p⟩, fun _ => 0, rfl, rfl, rfl,
    rfl⟩
  apart := by decide

/-- alice deposits, locks 200 of her USDC tokens, and is vested with the rest. -/
def sampleHandover : List (Action Auction.SampleExt) :=
  [.vesting .usdc ⟨"owner", []⟩ (.setVestingToken (.token "usdc_lp")),
    .vesting .atom ⟨"owner", []⟩ (.setVestingToken (.token "atom_lp")),
    .auction ⟨"manager", []⟩ (.setTokenInfo (some "usdc") (some "atom")
      (some Auction.samplePools)),
    .auction ⟨"alice", [⟨"atom", 2000⟩, ⟨"usdc", 2000⟩]⟩ .deposit,
    .donate [⟨"untrn", 4000⟩],
    .advance 20 1,
    .auction ⟨"bob", []⟩ .setPoolSize,
    .auction ⟨"alice", []⟩ (.lockLp .usdc 200 3),
    .advance 10 1,
    .auction ⟨"bob", []⟩ .initPool,
    .auction ⟨"bob", []⟩ .migrateToVesting]

/-- She claims some of it after half of the time. -/
def sampleWait : List (Action Auction.SampleExt) :=
  [.advance 50 1, .vesting .usdc ⟨"alice", []⟩ (.claim none (some 20)), .advance 50 1]

/-- What is reported about Alice once she is vested. -/
def sampleReport : Auction.UserInfoResponse where
  usdcDeposited := 2000
  atomDeposited := 2000
  withdrawn := false
  atomLpAmount := 500
  usdcLpAmount := 500
  atomLpLocked := 0
  usdcLpLocked := 200

/-- 300 USDC tokens are left, and 500 ATOM tokens. -/
theorem reported_lp_claimable_sample :
    let w' := run (exec sampleOutside) (run (exec sampleOutside) sampleStart sampleHandover)
      sampleWait
    Auction.queryUserInfo w'.storage "alice" = .ok sampleReport ∧ ∀ p,
      sampleReport.lpLocked p ≤ sampleReport.lpAmount p ∧
        sampleReport.lpAmount p - sampleReport.lpLocked p ≤ ((commit (exec sampleOutside) w'
          (.vesting p ⟨"alice", []⟩ (.claim none none))).ext.vesting p).claimed "alice" := by
  intro w'
  have hvested : ((run (exec sampleOutside) sampleStart sampleHandover).storage.user
      "alice").isVested = true := by decide +kernel
  have hreport : Auction.queryUserInfo
      (run (exec sampleOutside) sampleStart sampleHandover).storage "alice" =
        .ok sampleReport := by decide +kernel
  have hcaller : ∀ p, (w'.ext.vesting p).storage.config.vestingToken ≠
      some (.token "alice") := by
    intro p
    cases p <;> decide +kernel
  exact reported_lp_claimable sampleStart_started (by decide) rfl hvested hreport rfl
    (by decide +kernel) hcaller fun _ _ => rfl

end NeutronTge.VestedLp
