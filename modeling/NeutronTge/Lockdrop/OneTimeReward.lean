import NeutronTge.Lockdrop.Transactions

/-!
# NeutronTge.Lockdrop.OneTimeReward

A user gets the one-time reward and the airdrop at most once. The flag `ntrn_transferred`
decides: no message clears it, and the callbacks that pay set it. So what was paid to a user
together with what is still due to him (`Storage.due`) never grows.
-/

namespace NeutronTge.Lockdrop

open CosmWasm Astroport

/-- One for every payment of the one-time reward to a user. -/
def Event.rewardTo (u : Addr) : Event → Nat
  | .sent (.bankSend .lockdropReward recipient _) => if recipient = u then 1 else 0
  | _ => 0

/-- One for every burn of a user's cNTRN. -/
def Event.burnOf (u : Addr) : Event → Nat
  | .sent (.burnFrom _ owner _) => if owner = u then 1 else 0
  | _ => 0

/-- How often a user can still be paid. -/
def Storage.due (s : Storage) (u : Addr) : Nat := if (s.user u).ntrnTransferred then 0 else 1

/-- What counts the one-time payments to a user: nothing else counts, and paying him once
counts at most once. -/
structure OneTime (u : Addr) (f : Event → Nat) : Prop where
  received : ∀ p amount, f (.ntrnRewardReceived p amount) = 0
  other : ∀ m, (∀ coin, m ≠ .bankSend .lockdropReward u coin) →
    (∀ credits amount, m ≠ .burnFrom credits u amount) → f (.sent m) = 0
  once : ∀ credits total airdrop, (∀ m ∈ airdrop, ∃ amount, m = .burnFrom credits u amount) →
    airdrop.length ≤ 1 → countSent f (lockdropRewardMsg u total ++ airdrop) ≤ 1

theorem oneTime_rewardTo (u : Addr) : OneTime u (Event.rewardTo u) where
  received _ _ := rfl
  other m hreward _ := by
    unfold Event.rewardTo
    split
    · rename_i recipient coin heq
      obtain rfl := Event.sent.inj heq
      exact if_neg fun huser => hreward coin (by rw [huser])
    · rfl
  once credits total airdrop hburns _ := by
    have hzero : countSent (Event.rewardTo u) airdrop = 0 := by
      refine countSent_eq_zero fun m hm => ?_
      obtain ⟨amount, rfl⟩ := hburns m hm
      rfl
    rw [countSent_append, hzero]
    unfold lockdropRewardMsg
    split_ifs <;> simp [countSent, Event.rewardTo]

theorem oneTime_burnOf (u : Addr) : OneTime u (Event.burnOf u) where
  received _ _ := rfl
  other m _ hburn := by
    unfold Event.burnOf
    split
    · rename_i credits owner amount heq
      obtain rfl := Event.sent.inj heq
      exact if_neg fun huser => hburn credits amount (by rw [huser])
    · rfl
  once credits total airdrop hburns hone := by
    have hzero : countSent (Event.burnOf u) (lockdropRewardMsg u total) = 0 := by
      unfold lockdropRewardMsg
      split_ifs <;> rfl
    rw [countSent_append, hzero, Nat.zero_add]
    -- at most one burn, which counts one
    match airdrop, hone with
    | [], _ => exact Nat.zero_le 1
    | [m], _ =>
        obtain ⟨amount, rfl⟩ := hburns m List.mem_cons_self
        simp [countSent, Event.burnOf]

theorem due_mono {s s' : Storage} {u : Addr}
    (h : (s.user u).ntrnTransferred = true → (s'.user u).ntrnTransferred = true) :
    s'.due u ≤ s.due u := by
  unfold Storage.due
  by_cases hflag : (s.user u).ntrnTransferred = true
  · rw [if_pos (h hflag), if_pos hflag]
  · rw [if_neg hflag]
    split_ifs <;> simp

theorem due_congr {s s' : Storage} (h : s'.userInfo = s.userInfo) (u : Addr) :
    s'.due u = s.due u := by
  unfold Storage.due
  rw [user_congr h]

section Once

variable {E : Type} {x : Externals E} {u : Addr} {f : Event → Nat} {w w' : World E}

/-- What was paid to the user and what is still due to him together do not grow. -/
def PaysOnce (u : Addr) (f : Event → Nat) (w w' : World E) : Prop :=
  w'.count f + w'.storage.due u ≤ w.count f + w.storage.due u

theorem PaysOnce.refl (w : World E) : PaysOnce u f w w := Nat.le_refl _

theorem PaysOnce.trans {v : World E} (h : PaysOnce u f w v) (h' : PaysOnce u f v w') :
    PaysOnce u f w w' :=
  Nat.le_trans h' h

/-- A step that sends no one-time payment and clears no flag. -/
theorem PaysOnce.quiet {events : List Event} (htrace : w'.trace = w.trace ++ events)
    (hevents : ∀ e ∈ events, f e = 0)
    (hflag : (w.storage.user u).ntrnTransferred = true →
      (w'.storage.user u).ntrnTransferred = true) : PaysOnce u f w w' := by
  have hzero : (events.map f).sum = 0 := by
    rw [List.sum_eq_zero_iff]
    intro n hn
    obtain ⟨e, he, rfl⟩ := List.mem_map.mp hn
    exact hevents e he
  have hdue := due_mono hflag
  unfold PaysOnce
  rw [count_append htrace, hzero]
  omega

theorem PaysNtrn.once (hf : OneTime u f) {s s' : Storage} {user : Addr} {msgs : List CosmosMsg}
    (h : PaysNtrn s user (s.user user) s' msgs) :
    countSent f msgs + s'.due u ≤ s.due u := by
  by_cases huser : user = u
  · subst huser
    unfold Storage.due
    cases h with
    | already => simp
    | now airdrop hflag hairdrop hone =>
        have hcount := hf.once _ (s.user user).totalNtrnRewards airdrop hairdrop hone
        rw [@user_save s { s with userInfo := s.userInfo.save user _ } user _ rfl, if_pos rfl]
        simpa [hflag] using hcount
  · have hzero : countSent f msgs = 0 := by
      refine countSent_eq_zero fun m hm => ?_
      rcases h.mem hm with ⟨coin, rfl⟩ | ⟨credits, amount, rfl⟩
      · exact hf.other _ (by simp [huser]) (by simp)
      · exact hf.other _ (by simp) (by simp [huser])
    rw [hzero, Nat.zero_add]
    refine due_mono fun hflag => ?_
    cases h with
    | already => exact hflag
    | now =>
        rw [@user_save s { s with userInfo := s.userInfo.save user _ } user _ rfl,
          if_neg (Ne.symm huser)]
        exact hflag

theorem Collects.once (hf : OneTime u f) {p : PoolType} (h : Collects x p w w') :
    PaysOnce u f w w' := by
  have hframe := h.frame
  cases h with
  | nothing => exact PaysOnce.refl w
  | booked generator lpToken =>
      refine PaysOnce.quiet rfl ?_ ?_
      · intro e he
        simp only [List.mem_cons, List.not_mem_nil, or_false] at he
        rcases he with rfl | rfl
        · exact hf.other _ (by simp) (by simp)
        · exact hf.received _ _
      · rw [user_congr hframe.2.2.1]
        exact id

theorem PaysRewards.countSent_eq_zero (hf : OneTime u f) {key : LockupKey}
    {lockup lockup' : LockupInfoV2} {pool : PoolInfo} {generator : Addr} {share : Nat}
    {withdraw : Bool} {msgs : List CosmosMsg}
    (h : PaysRewards key lockup pool generator share withdraw lockup' msgs) :
    countSent f msgs = 0 := by
  refine Lockdrop.countSent_eq_zero fun m hm => ?_
  rcases h.mem hm with ⟨coin, rfl⟩ | ⟨transfer, rfl⟩ | ⟨-, rfl⟩ <;>
    exact hf.other _ (by simp) (by simp)

theorem Pays.once (hf : OneTime u f) {key : LockupKey} {withdraw : Bool} {msgs : List CosmosMsg}
    {pool : PoolInfo} {lockup lockup' : LockupInfoV2} {generator : Addr} {share : Nat}
    {t : Storage} {rewardMsgs exitMsgs ntrnMsgs : List CosmosMsg}
    (h : Pays x w w' key withdraw msgs pool lockup lockup' generator share t rewardMsgs exitMsgs
      ntrnMsgs) : PaysOnce u f w w' := by
  have hpays := h.paysOut
  have husers := hpays.exits.userInfo
  have hexit : countSent f exitMsgs = 0 := by
    refine countSent_eq_zero fun m hm => ?_
    obtain ⟨-, rfl⟩ := hpays.exits.mem hm
    exact hf.other _ (by simp) (by simp)
  have hntrn := hpays.ntrn
  rw [← user_congr husers] at hntrn
  have hpaid := hntrn.once hf
  rw [due_congr husers] at hpaid
  unfold PaysOnce
  rw [count_sent h.trace, hpays.messages, countSent_append, countSent_append,
    hpays.rewards.countSent_eq_zero hf, hexit]
  omega

theorem Migrates.once (hf : OneTime u f) {key : LockupKey} (h : Migrates x key w w') :
    PaysOnce u f w w' := by
  cases h with
  | skipped st hst hclosed hsame =>
      obtain rfl := hsame
      exact PaysOnce.refl _
  | migrated st w₁ w₂ rewardMsgs pool lockup generator share accrued rewardToken proxy ntrnMsgs
      pool' lockup' pair last hst hopen hcollects hpays hexits =>
      have hall := hpays.transfersAll
      have hrewards : countSent f (baseRewardMsg key.poolType key.user rewardToken
          (accrued - lockup.generatorNtrnDebt) ++
            proxy.map fun asset => .transfer (asset.intoMsg key.user)) = 0 := by
        refine countSent_eq_zero fun m hm => ?_
        rcases List.mem_append.mp hm with hm | hm
        · obtain ⟨coin, rfl⟩ := mem_baseRewardMsg hm
          exact hf.other _ (by simp) (by simp)
        · obtain ⟨asset, -, rfl⟩ := List.mem_map.mp hm
          exact hf.other _ (by simp) (by simp)
      have hpaid : PaysOnce u f w₁ w₂ := by
        have hntrn := hall.ntrn.once hf
        unfold PaysOnce
        rw [count_sent hpays.trace, hall.messages, countSent_append, hrewards]
        omega
      have hleft : PaysOnce u f w₂ w' := by
        obtain ⟨_, _, _, -, hlast⟩ := hexits.last_eq
        refine PaysOnce.quiet hexits.trace ?_ ?_
        · intro e he
          simp only [List.mem_cons, List.not_mem_nil, or_false] at he
          rcases he with rfl | rfl | rfl
          · exact hf.other _ (by simp) (by simp)
          · exact hf.other _ (by simp) (by simp)
          · exact hf.other _ (by simp [hlast]) (by simp [hlast])
        · rw [user_congr hexits.closes.userInfo]
          exact id
      exact (hcollects.once hf).trans (hpaid.trans hleft)

/-- The user record after the auction changed a position: the flag is the same. -/
theorem Increases.transferred {s s' : Storage} {env : Env} {info : MessageInfo}
    {key : LockupKey} {amount : Nat} {pool : PoolInfo} {weight : Nat} {lockup : LockupInfoV2}
    {userInfo : UserInfo}
    (h : Increases s s' env info key amount pool weight lockup userInfo) (v : Addr) :
    (s'.user v).ntrnTransferred = (s.user v).ntrnTransferred := by
  rw [user_save h.userInfo_eq]
  split_ifs with hv
  · rw [hv]
    cases h.position <;> rfl
  · rfl

theorem Withdraws.transferred {s s' : Storage} {env : Env} {info : MessageInfo}
    {key : LockupKey} {amount : Nat} {pool : PoolInfo} {weight : Nat} {st : StoredLockup}
    {lockup : LockupInfoV2} (h : Withdraws s s' env info key amount pool weight st lockup)
    (v : Addr) : (s'.user v).ntrnTransferred = (s.user v).ntrnTransferred := by
  have hposition := h.position
  generalize s'.lockupInfo = lockups at hposition
  generalize husers : s'.userInfo = users at hposition
  cases hposition with
  | deleted =>
      rw [user_save husers]
      split_ifs with hv
      · rw [hv]
      · rfl
  | kept => rw [user_congr husers]

/-- A transaction pays a user at most what is due to him. -/
theorem World.execute_once (hf : OneTime u f) {info : MessageInfo} {msg : ExecuteMsg}
    (h : w.execute x info msg = .ok w') : PaysOnce u f w w' := by
  obtain ⟨r, hr, hrun, hsender⟩ := execute_ok h
  obtain ⟨hevent, heffect⟩ := execute_effect hsender hr
  have hevents : r.events = [] := by
    unfold Response.events
    rw [hevent]
  -- the handler alone pays nothing
  have hrespond : (∀ v, (w.storage.user v).ntrnTransferred = true →
      (r.storage.user v).ntrnTransferred = true) → PaysOnce u f w (w.respond r) := by
    intro hflag
    exact PaysOnce.quiet (show (w.respond r).trace = w.trace ++ r.events from rfl)
      (by simp [hevents]) (hflag u)
  have hmessages : r.messages = [] → (∀ v, (w.storage.user v).ntrnTransferred = true →
      (r.storage.user v).ntrnTransferred = true) → PaysOnce u f w w' := by
    intro hnil hflag
    rw [hnil] at hrun
    obtain rfl := Except.ok.inj hrun
    exact hrespond hflag
  cases heffect with
  | increase key amount pool weight lockup userInfo hmsgs hinc =>
      exact hmessages hmsgs fun v hv => by rw [hinc.transferred, hv]
  | withdraw key amount pool weight st lockup hmsgs hwith =>
      exact hmessages hmsgs fun v hv => by rw [hwith.transferred, hv]
  | initPool poolType incentivesShare sender amount pool hauction hinit =>
      obtain ⟨generator, height, -, hmsgs⟩ := hinit.messages
      have husers : r.storage.userInfo = w.storage.userInfo := by rw [hinit.storage]
      obtain ⟨ext, -, rfl⟩ := externals_ok hinit.external hrun
      refine (hrespond fun v hv => by rw [user_congr husers, hv]).trans
        (PaysOnce.quiet rfl ?_ id)
      intro e he
      rw [hmsgs] at he
      simp only [List.map_cons, List.map_nil, List.mem_cons, List.not_mem_nil, or_false] at he
      rcases he with rfl | rfl <;> exact hf.other _ (by simp) (by simp)
  | setTokenInfo atomToken usdcToken generator hmsgs hstorage =>
      exact hmessages hmsgs fun v hv => by rw [hstorage]; exact hv
  | reconfigure msg hmsg hmsgs hsame =>
      exact hmessages hmsgs fun v hv => by rw [user_congr hsame.userInfo, hv]
  | claim poolType duration withdraw userInfo total t st collect hclaim =>
      obtain ⟨w₁, msgs, pool, lockup, lockup', generator, share, t', rewardMsgs, exitMsgs,
        ntrnMsgs, hcollects, hpays⟩ := execute_claim_ok hclaim hrun
      exact (hrespond hclaim.sameBooks.transferred).trans
        ((hcollects.once hf).trans (hpays.once hf))
  | migrate raw hsame hmsgs =>
      refine (hrespond hsame.transferred).trans ?_
      refine foldlM_relation (R := PaysOnce u f) PaysOnce.refl
        (fun _ _ _ => PaysOnce.trans) ?_ hrun
      intro v v' m hm hstep
      obtain ⟨key, rfl⟩ := hmsgs m hm
      exact (migrates_ok hstep).once hf

end Once

end NeutronTge.Lockdrop
