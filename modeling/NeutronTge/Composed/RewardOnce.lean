import NeutronTge.Lockdrop.OneTimeReward
import NeutronTge.Composed.Lockdrops

/-!
# NeutronTge.Composed.RewardOnce

Over both lockdrops a user gets the one-time reward once. The XYK lockdrop pays before it
hands a lockup over, so every user of the PCL lockdrop comes with the flag
`ntrn_transferred` set, and the PCL lockdrop never pays (`Silent`).
-/

namespace NeutronTge.LockdropPcl

open CosmWasm Astroport
open Lockdrop (LockupKey)

variable {E : Type} {x : Externals E} {w w' : World E}

/-- One for every payment of the one-time reward to a user. -/
def CosmosMsg.rewardTo (u : Addr) : CosmosMsg → Nat
  | .bankSend recipient _ => if recipient = u then 1 else 0
  | _ => 0

/-- One for every burn of a user's cNTRN. -/
def CosmosMsg.burnOf (u : Addr) : CosmosMsg → Nat
  | .burnFrom _ owner _ => if owner = u then 1 else 0
  | _ => 0

/-- The messages that pay a one-time reward. -/
def CosmosMsg.paysNtrn : CosmosMsg → Bool
  | .bankSend _ _ => true
  | .burnFrom _ _ _ => true
  | _ => false

/-- Everybody was paid elsewhere, and the PCL lockdrop paid nobody. -/
structure Silent (w : World E) : Prop where
  paid : ∀ u, w.storage.paidOf u ≠ some false
  silent : ∀ m ∈ w.trace, m.paysNtrn = false

theorem Silent.of_trace {msgs : List CosmosMsg} (h : Silent w)
    (hpaid : ∀ u, w'.storage.paidOf u ≠ some false) (htrace : w'.trace = w.trace ++ msgs)
    (hmsgs : ∀ m ∈ msgs, m.paysNtrn = false) : Silent w' where
  paid := hpaid
  silent m hm := by
    rw [htrace] at hm
    rcases List.mem_append.mp hm with hm | hm
    · exact h.silent m hm
    · exact hmsgs m hm

/-- A user who was paid is not paid again. -/
theorem PaysNtrn.of_paid {s s' : Storage} {user : Addr} {userInfo : UserInfo}
    {msgs : List CosmosMsg} (h : PaysNtrn s user userInfo s' msgs)
    (hpaid : userInfo.ntrnTransferred = true) : s' = s ∧ msgs = [] := by
  cases h with
  | already => exact ⟨rfl, rfl⟩
  | now _ hflag =>
      rw [hpaid] at hflag
      cases hflag

theorem paidOf_congr {s s' : Storage} (h : s'.userInfo = s.userInfo) (u : Addr) :
    s'.paidOf u = s.paidOf u := by
  unfold Storage.paidOf
  rw [h]

theorem user_paid {s : Storage} {u : Addr} (hstored : s.paidOf u ≠ none)
    (h : s.paidOf u ≠ some false) : (s.user u).ntrnTransferred = true := by
  unfold Storage.paidOf at hstored h
  unfold Storage.user
  cases hu : s.userInfo.mayLoad u with
  | none => simp [hu] at hstored
  | some info => simpa [hu] using h

theorem Silent.claim {key : LockupKey} {withdraw : Bool} {r : Response} {w₁ : World E}
    {opened : LockupInfo} {collect msgs : List CosmosMsg} {pool : PoolInfo}
    {lockup lockup' : LockupInfo} {share : Nat} {t : Storage}
    {rewardMsgs exitMsgs ntrnMsgs : List CosmosMsg} (h : Silent w)
    (hstarts : StartsClaim w.storage r.storage w.env key withdraw r.messages opened collect)
    (hcollects : Collects x key.poolType (w.respond r) w₁)
    (hpays : Pays x w₁ w' key withdraw msgs pool lockup lockup' share t rewardMsgs exitMsgs
      ntrnMsgs) : Silent w' := by
  have hout := hpays.paysOut
  obtain ⟨-, -, husers, -⟩ := hcollects.frame
  have hpaidOf : ∀ u, w₁.storage.paidOf u = w.storage.paidOf u := by
    intro u
    rw [paidOf_congr husers]
    exact hstarts.sameBooks.users u
  -- the flag came with the migration, and nothing resets it
  have hflag : (w₁.storage.user key.user).ntrnTransferred = true := by
    refine user_paid ?_ ?_ <;> rw [hpaidOf]
    · exact hstarts.user_eq
    · exact h.paid key.user
  obtain ⟨hstorage, hnil⟩ := hout.ntrn.of_paid hflag
  obtain ⟨collected, htrace, hcollected⟩ := hcollects.trace
  refine h.of_trace ?_ (show w'.trace = w.trace ++ (collected ++ msgs) by
    rw [hpays.trace, htrace, List.append_assoc]
    rfl) ?_
  · intro u
    rw [hstorage, paidOf_congr hout.exits.userInfo, hpaidOf]
    exact h.paid u
  · intro m hm
    rcases List.mem_append.mp hm with hm | hm
    · obtain ⟨incentives, lpTokens, rfl⟩ := hcollected m hm
      rfl
    · rcases hout.mem hm with ⟨transfer, rfl⟩ | ⟨-, rfl⟩ | ⟨-, rfl⟩ | hntrn
      · rfl
      · rfl
      · rfl
      · rw [hnil] at hntrn
        cases hntrn

theorem Silent.migrates {key : LockupKey} {funds : List Coin} {userInfo : Lockdrop.UserInfo}
    {lockup : Lockdrop.LockupInfoV2} {stake : Bool} {pair : Addr} {ext : E}
    {msgs : List CosmosMsg} {prev balance : Nat} {pool : PoolInfo} {weight : Nat}
    (h : Silent w) (hpaid : userInfo.ntrnTransferred = true)
    (hmigrates : Migrates x w w' key funds userInfo lockup stake pair ext msgs prev balance pool
      weight) : Silent w' := by
  refine h.of_trace ?_ hmigrates.trace ?_
  · intro u
    rw [paidOf_save hmigrates.finishes.userInfo_eq]
    split_ifs with hu
    · simp [UserInfo.ofXyk, hpaid]
    · exact h.paid u
  · intro m hm
    rw [hmigrates.finishes.messages] at hm
    rcases List.mem_cons.mp hm with rfl | hm
    · rfl
    · split_ifs at hm
      · rw [List.mem_singleton.mp hm]
        rfl
      · cases hm

/-- The messages of anybody but the XYK lockdrop. -/
theorem Silent.execute {info : MessageInfo} {msg : ExecuteMsg} (h : Silent w)
    (hsender : info.sender ≠ w.storage.config.xykLockdropContract)
    (hexec : w.execute x info msg = .ok w') : Silent w' := by
  cases execute_effect hexec with
  | administer _ _ hsame =>
      refine h.of_trace (fun u => ?_) (show w'.trace = w.trace ++ [] by simp [hsame.trace])
        (by simp)
      rw [paidOf_congr hsame.userInfo]
      exact h.paid u
  | claim poolType duration withdraw r w₁ opened collect msgs pool lockup lockup' share t
      rewardMsgs exitMsgs ntrnMsgs hstarts hcollects hpays =>
      exact h.claim hstarts hcollects hpays
  | migrate _ _ _ _ _ _ _ _ _ _ _ hxyk => exact absurd hxyk hsender

end NeutronTge.LockdropPcl

namespace NeutronTge.Lockdrops

open CosmWasm

variable {F : Type} {o : Outside F} {w w' : World F}

/-- How often both lockdrops paid the one-time reward to a user. -/
def rewardsTo (w : World F) (u : Addr) : Nat :=
  w.count (Lockdrop.Event.rewardTo u) +
    (w.ext.trace.map (LockdropPcl.CosmosMsg.rewardTo u)).sum

/-- How often both lockdrops burned cNTRN of a user. -/
def burnsOf (w : World F) (u : Addr) : Nat :=
  w.count (Lockdrop.Event.burnOf u) + (w.ext.trace.map (LockdropPcl.CosmosMsg.burnOf u)).sum

/-- The invariant of the runs: a user is paid what is due to him, by the XYK lockdrop. -/
structure PaidOnce (w : World F) : Prop where
  linked : Linked w
  reward : ∀ u, w.count (Lockdrop.Event.rewardTo u) + w.storage.due u ≤ 1
  burn : ∀ u, w.count (Lockdrop.Event.burnOf u) + w.storage.due u ≤ 1
  silent : LockdropPcl.Silent w.ext

theorem PaidOnce.exec {a : Action F} (h : PaidOnce w) (hexec : Lockdrops.exec o w a = .ok w') :
    PaidOnce w' := by
  have hlinked := h.linked.exec hexec
  cases a with
  | advance seconds blocks =>
      obtain rfl := Except.ok.inj hexec
      exact ⟨hlinked, h.reward, h.burn, ⟨h.silent.paid, h.silent.silent⟩⟩
  | drift ext =>
      obtain rfl := Except.ok.inj hexec
      exact ⟨hlinked, h.reward, h.burn, ⟨h.silent.paid, h.silent.silent⟩⟩
  | migrate =>
      obtain rfl := Except.ok.inj hexec
      exact ⟨hlinked, h.reward, h.burn, h.silent⟩
  | xyk info msg =>
      have hreward := fun u => Lockdrop.World.execute_once (Lockdrop.oneTime_rewardTo u) hexec
      have hburn := fun u => Lockdrop.World.execute_once (Lockdrop.oneTime_burnOf u) hexec
      have hsilent : LockdropPcl.Silent w.ext → LockdropPcl.Silent w'.ext := by
        refine execute_pcl (R := fun e e' => LockdropPcl.Silent e → LockdropPcl.Silent e')
          (fun _ _ _ h h' => h' ∘ h) ?_ ?_ h.linked.pcl hexec
        · intro e e' hsame hs
          exact ⟨fun u => by rw [hsame.storage]; exact hs.paid u,
            fun m hm => hs.silent m (hsame.trace ▸ hm)⟩
        · intro e e' key funds userInfo lockup stake pair ext msgs prev balance pool weight
            hpaid hmigrates hs
          exact hs.migrates hpaid hmigrates
      exact ⟨hlinked, fun u => Nat.le_trans (hreward u) (h.reward u),
        fun u => Nat.le_trans (hburn u) (h.burn u), hsilent h.silent⟩
  | pcl info msg =>
      simp only [Lockdrops.exec, bind_eq_ok, rejectIf_eq_ok, exists_const,
        Except.ok.injEq] at hexec
      obtain ⟨hsender, e, hexecute, rfl⟩ := hexec
      refine ⟨hlinked, h.reward, h.burn, h.silent.execute ?_ hexecute⟩
      rw [h.linked.xyk]
      exact hsender

theorem Started.paidOnce (h : Started o w) : PaidOnce w := by
  have hlinked := h.linked
  obtain ⟨info, env', info', msg, msg', -, hpcl, -⟩ := h.storages
  have hdue : ∀ u, w.storage.due u ≤ 1 := by
    intro u
    unfold Lockdrop.Storage.due
    split_ifs <;> simp
  refine ⟨hlinked, ?_, ?_, ?_, ?_⟩
  · intro u
    simp [Lockdrop.World.count, h.trace, hdue u]
  · intro u
    simp [Lockdrop.World.count, h.trace, hdue u]
  · intro u hsome
    rw [hpcl] at hsome
    cases hsome
  · simp [h.pclTrace]

/-- In every run of the two lockdrops, whoever claims or migrates what in which order, a user
gets the one-time reward and the airdrop at most once, and not from the PCL lockdrop. -/
theorem reward_paid_once (h : Started o w) (as : List (Action F)) (u : Addr) :
    rewardsTo (run (exec o) w as) u ≤ 1 ∧ burnsOf (run (exec o) w as) u ≤ 1 ∧
      ∀ m ∈ (run (exec o) w as).ext.trace, m.paysNtrn = false := by
  have hpaid : PaidOnce (run (exec o) w as) :=
    run_invariant PaidOnce (fun _ _ _ => PaidOnce.exec) h.paidOnce
  generalize run (exec o) w as = v at hpaid
  have hsilent := hpaid.silent.silent
  have hnone : ∀ f : LockdropPcl.CosmosMsg → Nat, (∀ m, m.paysNtrn = false → f m = 0) →
      (v.ext.trace.map f).sum = 0 := by
    intro f hf
    rw [List.sum_eq_zero_iff]
    intro n hn
    obtain ⟨m, hm, rfl⟩ := List.mem_map.mp hn
    exact hf m (hsilent m hm)
  refine ⟨?_, ?_, hsilent⟩
  · have hreward := hpaid.reward u
    rw [rewardsTo, hnone _ fun m hm => by cases m <;> first | rfl | cases hm]
    omega
  · have hburn := hpaid.burn u
    rw [burnsOf, hnone _ fun m hm => by cases m <;> first | rfl | cases hm]
    omega

/-- Bob claims, and then somebody migrates his lockups. -/
def bobClaims : List (Action SampleOutside) :=
  sampleLocks ++
    [.advance 100 10, .xyk ⟨"bob", []⟩ (.claimRewardsAndOptionallyUnlock .usdc 1 false),
    .migrate, .xyk ⟨"carol", []⟩ (.migrateLiquidityToPCLPools (some "bob"))]

theorem reward_paid_once_sample :
    rewardsTo (run (exec sampleOutside) sampleStart bobClaims) "bob" ≤ 1 ∧
      burnsOf (run (exec sampleOutside) sampleStart bobClaims) "bob" ≤ 1 ∧
      ∀ m ∈ (run (exec sampleOutside) sampleStart bobClaims).ext.trace, m.paysNtrn = false :=
  reward_paid_once sampleStart_started bobClaims "bob"

/-- He is paid once, and his lockup is migrated. -/
example : rewardsTo (run (exec sampleOutside) sampleStart bobClaims) "bob" = 1 ∧
    (run (exec sampleOutside) sampleStart bobClaims).ext.storage.coreOf ⟨.usdc, "bob", 1⟩ =
      some ⟨10, none, false, [], 251⟩ := by
  decide +kernel

end NeutronTge.Lockdrops
