import NeutronTge.Credits.Chain

/-!
# NeutronTge.Credits.Backing

cNTRN is backed by untrn and can be redeemed. `FullyBacked` is the invariant: the contract
holds at least the supply, the supply is the sum of the balances, and no allocation has
withdrawn more than its schedule has vested. An allocation does not know what `BurnFrom` paid,
so what it offers can be more than the balance that is left; `Within` bounds the balance by
what the allocation still has to offer, and at the end of the schedule the balance is what a
withdrawal pays.
-/

namespace NeutronTge.Credits

open CosmWasm

variable {cw20 : Cw20Base} {w w' : World}

/-! ### Balances -/

/-- All balances together. -/
def Cw20State.circulating (t : Cw20State) : Nat := t.balances.sum fun _ balance => balance

theorem balanceOf_save {t t' : Cw20State} {owner : Addr} {balance : Nat}
    (h : t'.balances = t.balances.save owner balance) (u : Addr) :
    t'.balanceOf u = if u = owner then balance else t.balanceOf u := by
  unfold Cw20State.balanceOf
  rw [h, Map.mayLoad_save_eq]
  split_ifs <;> rfl

/-- Writing one balance moves the sum by the difference. -/
theorem sum_balances_save (balances : Map Addr Nat) (owner : Addr) (balance : Nat) :
    (balances.save owner balance).sum (fun _ b => b) + (balances.mayLoad owner).getD 0 =
      balances.sum (fun _ b => b) + balance := by
  have hmove := @Map.sum_move Addr Nat Nat _ _ balances (balances.save owner balance)
    (fun _ b => b) owner fun k hk => by rw [Map.mayLoad_save_ne hk]
  rw [Map.mayLoad_save, Option.elim_some] at hmove
  cases hload : balances.mayLoad owner with
  | none =>
      rw [hload] at hmove
      exact hmove
  | some old =>
      rw [hload] at hmove
      exact hmove

theorem circulating_save {t t' : Cw20State} {owner : Addr} {balance : Nat}
    (h : t'.balances = t.balances.save owner balance) :
    t'.circulating + t.balanceOf owner = t.circulating + balance := by
  unfold Cw20State.circulating
  rw [h]
  exact sum_balances_save _ _ _

theorem Burns.circulating {s s' : Storage} {payee : Addr} {amount : Nat}
    (h : Burns s s' payee amount) :
    s'.token.circulating + amount = s.token.circulating := by
  have hmove := circulating_save h.balances
  have hle := h.amount_le
  omega

/-- The supply is what circulates. -/
def Storage.Supplied (s : Storage) : Prop := s.token.totalSupply = s.token.circulating

theorem Effect.supplied {s s' : Storage} {env : Env} {info : MessageInfo} {msg : ExecuteMsg}
    {payments : List BankSend} (h : Effect s s' env info msg payments) (hs : s.Supplied) :
    s'.Supplied := by
  unfold Storage.Supplied at *
  have hburns : ∀ {payee amount}, Burns s s' payee amount →
      s'.token.totalSupply = s'.token.circulating := by
    intro payee amount hburns
    have hcirculating := hburns.circulating
    rw [hburns.totalSupply]
    omega
  cases h with
  | configure _ htoken =>
      rw [htoken]
      exact hs
  | addVesting _ _ _ _ _ _ hstorage =>
      rw [hstorage]
      exact hs
  | transfer recipient amount token left hle hleft hbalances hsupply hstorage =>
      have hdown := sum_balances_save s.token.balances info.sender
        (s.token.balanceOf info.sender - amount)
      have hup := sum_balances_save left recipient ((left.mayLoad recipient).getD 0 + amount)
      rw [← hleft] at hdown
      rw [← hbalances] at hup
      change _ + s.token.balanceOf info.sender = _ at hdown
      rw [hstorage]
      show token.totalSupply = token.circulating
      -- a transfer to oneself is covered too: the second balance is read after the first write
      unfold Cw20State.circulating at hs ⊢
      omega
  | withdraw _ _ _ hwithdraws => exact hburns hwithdraws.burns
  | burn _ _ h => exact hburns h
  | burnFrom _ _ _ h => exact hburns h
  | mint recipient amount token _ _ hbalances hsupply hstorage =>
      have hmove := circulating_save hbalances
      rw [hstorage]
      show token.totalSupply = token.circulating
      omega

/-! ### The invariant -/

/-- What a message pays is burned, and what it mints came with it. -/
theorem Effect.covered {s s' : Storage} {env : Env} {info : MessageInfo} {msg : ExecuteMsg}
    {payments : List BankSend} (h : Effect s s' env info msg payments) :
    s'.token.totalSupply + (payments.map BankSend.amount).sum ≤
      s.token.totalSupply + untrnIn info.funds := by
  have hburns : ∀ {payee amount}, Burns s s' payee amount →
      s'.token.totalSupply + amount ≤ s.token.totalSupply := by
    intro payee amount hburns
    have hle := hburns.supply_le
    rw [hburns.totalSupply]
    omega
  cases h with
  | configure _ htoken =>
      rw [htoken]
      simp
  | addVesting _ _ _ _ _ _ hstorage =>
      rw [hstorage]
      simp
  | transfer recipient amount token left hle hleft hbalances hsupply hstorage =>
      rw [hstorage]
      simp [hsupply]
  | withdraw _ _ _ hwithdraws => simpa using (hburns hwithdraws.burns).trans (Nat.le_add_right _ _)
  | burn _ _ h => simpa using (hburns h).trans (Nat.le_add_right _ _)
  | burnFrom _ _ _ h => simpa using (hburns h).trans (Nat.le_add_right _ _)
  | mint recipient amount token hfunds _ _ hsupply hstorage =>
      -- only the first coin of the message is looked at
      have hfirst : amount ≤ untrnIn info.funds := by
        obtain ⟨coin, rest, hfunds'⟩ : ∃ coin rest, info.funds = coin :: rest := by
          cases hlist : info.funds with
          | nil =>
              rw [hlist] at hfunds
              cases hfunds
          | cons coin rest => exact ⟨coin, rest, rfl⟩
        rw [hfunds'] at hfunds ⊢
        obtain rfl := Option.some.inj hfunds
        simp [untrnIn]
      rw [hstorage]
      simp [hsupply, hfirst]

/-- What an allocation has vested by now. -/
def Allocation.vested (a : Allocation) (time : Nat) : Nat :=
  a.schedule.vestedAt a.allocatedAmount time

/-- What holds in every reachable state. -/
structure FullyBacked (w : World) : Prop where
  backed : w.storage.token.totalSupply ≤ w.held
  supply : w.storage.Supplied
  cliff : ∀ u a, w.storage.allocations.mayLoad u = some a → a.schedule.cliff = vestingCliff
  vested : ∀ u a, w.storage.allocations.mayLoad u = some a →
    a.withdrawnAmount ≤ a.vested w.env.time

theorem FullyBacked.start (h : Started w) : FullyBacked w := by
  obtain ⟨⟨daoAddress, hstorage⟩, -⟩ := h
  constructor
  · rw [hstorage]
    exact Nat.zero_le _
  · rw [hstorage]
    rfl
  · intro u a ha
    rw [hstorage] at ha
    cases ha
  · intro u a ha
    rw [hstorage] at ha
    cases ha

/-- Where an allocation comes from: it was there, it is new, or its owner has withdrawn. -/
theorem Effect.allocation {s s' : Storage} {env : Env} {info : MessageInfo} {msg : ExecuteMsg}
    {payments : List BankSend} (h : Effect s s' env info msg payments) {u : Addr}
    {a : Allocation} (ha : s'.allocations.mayLoad u = some a) :
    s.allocations.mayLoad u = some a ∨
      (s.allocations.mayLoad u = none ∧ a.withdrawnAmount = 0 ∧ a.schedule.cliff = vestingCliff) ∨
      ∃ old withdrawable amount, Withdraws s s' env u old withdrawable amount ∧
        a = { old with withdrawnAmount := old.withdrawnAmount + amount } := by
  cases h with
  | configure _ _ hallocations => exact Or.inl (hallocations ▸ ha)
  | addVesting address amount startTime duration _ hnew hstorage =>
      rw [hstorage, Map.mayLoad_save_eq] at ha
      split_ifs at ha with hu
      · obtain rfl := Option.some.inj ha
        rw [hu]
        exact Or.inr (Or.inl ⟨hnew, rfl, rfl⟩)
      · exact Or.inl ha
  | transfer _ _ _ _ _ _ _ _ hstorage =>
      rw [hstorage] at ha
      exact Or.inl ha
  | withdraw old withdrawable amount hwithdraws =>
      rw [hwithdraws.allocations, Map.mayLoad_save_eq] at ha
      split_ifs at ha with hu
      · obtain rfl := Option.some.inj ha
        rw [hu]
        exact Or.inr (Or.inr ⟨old, withdrawable, amount, hwithdraws, rfl⟩)
      · exact Or.inl ha
  | burn _ _ _ hallocations => exact Or.inl (hallocations ▸ ha)
  | burnFrom _ _ _ _ hallocations => exact Or.inl (hallocations ▸ ha)
  | mint _ _ _ _ _ _ _ hstorage =>
      rw [hstorage] at ha
      exact Or.inl ha

/-- A withdrawal takes at most what was vested and not yet withdrawn. -/
theorem Withdraws.vested {s s' : Storage} {env : Env} {owner : Addr} {allocation : Allocation}
    {withdrawable amount : Nat} (h : Withdraws s s' env owner allocation withdrawable amount) :
    allocation.withdrawnAmount + amount ≤ allocation.vested env.time := by
  have hoffered := computeWithdrawableAmount_ok h.withdrawable_eq
  have hamount := h.amount_eq
  unfold Allocation.vested
  omega

theorem FullyBacked.exec (hcw20 : cw20.Lawful) {a : Action} (hbacked : FullyBacked w)
    (h : w.exec cw20 a = .ok w') : FullyBacked w' := by
  cases a with
  | advance seconds blocks =>
      obtain rfl := Except.ok.inj h
      refine ⟨hbacked.backed, hbacked.supply, hbacked.cliff, fun u a ha => ?_⟩
      exact (hbacked.vested u a ha).trans (vestedAt_mono _ _ (Nat.le_add_right _ _))
  | donate amount =>
      obtain rfl := Except.ok.inj h
      exact ⟨hbacked.backed.trans (Nat.le_add_right _ _), hbacked.supply, hbacked.cliff,
        hbacked.vested⟩
  | execute info msg =>
      obtain ⟨payments, heffect, henv, -, hheld⟩ := World.execute_ok hcw20 h
      have hcovered := heffect.covered
      have hbacks := hbacked.backed
      refine ⟨by omega, heffect.supplied hbacked.supply, fun u a ha => ?_, fun u a ha => ?_⟩
      · rcases heffect.allocation ha with hold | ⟨-, -, hcliff⟩ | ⟨old, _, _, hwithdraws, rfl⟩
        · exact hbacked.cliff u a hold
        · exact hcliff
        · exact hbacked.cliff u old hwithdraws.allocation_eq
      · rw [henv]
        rcases heffect.allocation ha with hold | ⟨-, hzero, -⟩ | ⟨old, _, _, hwithdraws, rfl⟩
        · exact hbacked.vested u a hold
        · rw [hzero]
          exact Nat.zero_le _
        · exact hwithdraws.vested

theorem FullyBacked.run (hcw20 : cw20.Lawful) (as : List Action) (h : FullyBacked w) :
    FullyBacked (run (World.exec cw20) w as) :=
  @run_invariant _ _ _ (World.exec cw20) FullyBacked
    (fun _ _ _ hbacked hexec => hbacked.exec hcw20 hexec) as w h

/-! ### What can be computed -/

/-- The amount and the end of the schedule fit their types. -/
structure Allocation.Fits (a : Allocation) : Prop where
  amount_lt : a.allocatedAmount < 2 ^ 128
  end_lt : a.schedule.startTime + a.schedule.duration < 2 ^ 64

theorem computeVestedAmount_of_fits {a : Allocation} (h : a.Fits)
    (hcliff : a.schedule.cliff = vestingCliff) (time : Nat) :
    computeVestedAmount a.allocatedAmount a.schedule time = .ok (a.vested time) := by
  have hend := h.end_lt
  have hnone : a.schedule.startTime + a.schedule.cliff = a.schedule.startTime := by
    rw [hcliff]
    rfl
  have hstart : Uint.add 64 a.schedule.startTime a.schedule.cliff =
      .ok a.schedule.startTime := by
    rw [Uint.add_eq_ok, hnone]
    exact ⟨by omega, rfl⟩
  have hfinish : Uint.add 64 a.schedule.startTime a.schedule.duration =
      .ok (a.schedule.startTime + a.schedule.duration) := Uint.add_eq_ok.mpr ⟨hend, rfl⟩
  have hle := (vestedAt_le a.schedule a.allocatedAmount time).trans_lt h.amount_lt
  unfold computeVestedAmount Allocation.vested
  unfold Schedule.vestedAt at hle ⊢
  rw [hnone] at hle ⊢
  rw [hstart, hfinish]
  simp only [bind_eq_ok, Except.ok.injEq, exists_eq_left']
  by_cases hbefore : time < a.schedule.startTime
  · rw [if_pos hbefore, if_pos hbefore]
  · rw [if_neg hbefore] at hle ⊢
    rw [if_neg hbefore]
    simp only [bind_eq_ok, Except.ok.injEq, exists_eq_left']
    by_cases hduring : time < a.schedule.startTime + a.schedule.duration
    · -- the linear part, where the quotient is smaller than the whole
      rw [if_pos hduring] at hle ⊢
      rw [if_pos hduring]
      simp only [bind_eq_ok, Uint.sub_eq_ok]
      exact ⟨_, ⟨Nat.le_of_not_lt hbefore, rfl⟩,
        Uint.multiplyRatio_eq_ok.mpr ⟨by omega, hle, rfl⟩⟩
    · rw [if_neg hduring, if_neg hduring]

/-- What has not been withdrawn can be computed. -/
theorem FullyBacked.computes (hbacked : FullyBacked w) {u : Addr} {a : Allocation}
    (ha : w.storage.allocations.mayLoad u = some a) (hfits : a.Fits) :
    computeWithdrawableAmount a.allocatedAmount a.withdrawnAmount a.schedule w.env.time =
      .ok (a.vested w.env.time - a.withdrawnAmount) := by
  unfold computeWithdrawableAmount
  rw [computeVestedAmount_of_fits hfits (hbacked.cliff u a ha)]
  exact Uint.checkedSub_eq_ok.mpr ⟨hbacked.vested u a ha, rfl⟩

/-! ### Redeeming everything -/

/-- The documented behaviour of `cw20-base` when nothing is wrong: who has the tokens can burn
them. -/
structure Cw20Base.Burnable (cw20 : Cw20Base) : Prop where
  executeBurn_isOk : ∀ {t : Cw20State} {env : Env} {info : MessageInfo} {amount : Nat},
    0 < amount → amount ≤ t.balanceOf info.sender → amount ≤ t.totalSupply →
    ∃ t', cw20.executeBurn t env info amount = .ok t'

/-- An account whose balance is at most what its allocation still has to offer. -/
structure Within (u : Addr) (allocated : Nat) (schedule : Schedule) (w : World) : Prop where
  stored : ∃ a, w.storage.allocations.mayLoad u = some a ∧ a.allocatedAmount = allocated ∧
    a.schedule = schedule ∧ w.storage.token.balanceOf u + a.withdrawnAmount ≤ allocated

/-- A transaction that adds nothing to the balance of an account. -/
def NotCredited (u : Addr) (w : World) : Action → Prop
  | .execute _ (.transfer recipient _) => recipient ≠ u
  | .execute _ .mint => w.storage.config.airdropAddress ≠ some u
  | _ => True

theorem Within.exec (hcw20 : cw20.Lawful) {u : Addr} {allocated : Nat} {schedule : Schedule}
    {a : Action} (hwithin : Within u allocated schedule w) (hcredit : NotCredited u w a)
    (hexec : w.exec cw20 a = .ok w') : Within u allocated schedule w' := by
  obtain ⟨⟨alloc, halloc, hallocated, hschedule, hle⟩⟩ := hwithin
  have hburns : ∀ {payee amount}, Burns w.storage w'.storage payee amount →
      w'.storage.token.balanceOf u ≤ w.storage.token.balanceOf u := by
    intro payee amount hburns
    rw [balanceOf_save hburns.balances]
    split_ifs with hu
    · rw [hu]
      exact Nat.sub_le _ _
    · exact Nat.le_refl _
  cases a with
  | advance seconds blocks =>
      obtain rfl := Except.ok.inj hexec
      exact ⟨alloc, halloc, hallocated, hschedule, hle⟩
  | donate amount =>
      obtain rfl := Except.ok.inj hexec
      exact ⟨alloc, halloc, hallocated, hschedule, hle⟩
  | execute info msg =>
      obtain ⟨payments, heffect, -⟩ := World.execute_ok hcw20 hexec
      cases heffect with
      | configure _ htoken hallocations =>
          refine ⟨alloc, by rw [hallocations, halloc], hallocated, hschedule, ?_⟩
          rw [htoken]
          exact hle
      | addVesting address _ _ _ _ hnew hstorage =>
          have hother : u ≠ address := by
            rintro rfl
            rw [hnew] at halloc
            cases halloc
          refine ⟨alloc, ?_, hallocated, hschedule, ?_⟩ <;> rw [hstorage]
          · rw [Map.mayLoad_save_ne hother, halloc]
          · exact hle
      | transfer recipient amount token left _ hleft hbalances _ hstorage =>
          refine ⟨alloc, by rw [hstorage, halloc], hallocated, hschedule, ?_⟩
          have hother : u ≠ recipient := Ne.symm hcredit
          have hkept : token.balanceOf u ≤ w.storage.token.balanceOf u := by
            unfold Cw20State.balanceOf
            rw [hbalances, Map.mayLoad_save_ne hother, hleft, Map.mayLoad_save_eq]
            split_ifs with hu
            · rw [hu, Option.getD_some]
              exact Nat.sub_le _ _
            · exact Nat.le_refl _
          rw [hstorage]
          exact (Nat.add_le_add_right hkept _).trans hle
      | withdraw allocation withdrawable amount hwithdraws =>
          by_cases hu : u = info.sender
          · -- the balance goes down by what the allocation has withdrawn
            subst hu
            obtain rfl := Option.some.inj (hwithdraws.allocation_eq.symm.trans halloc)
            refine ⟨{ allocation with withdrawnAmount := allocation.withdrawnAmount + amount },
              by rw [hwithdraws.allocations, Map.mayLoad_save], hallocated, hschedule, ?_⟩
            have hamount := hwithdraws.burns.amount_le
            rw [balanceOf_save hwithdraws.burns.balances, if_pos rfl]
            dsimp only
            omega
          · refine ⟨alloc, ?_, hallocated, hschedule, ?_⟩
            · rw [hwithdraws.allocations, Map.mayLoad_save_ne hu, halloc]
            · exact (Nat.add_le_add_right (hburns hwithdraws.burns) _).trans hle
      | burn _ _ h hallocations =>
          refine ⟨alloc, by rw [hallocations, halloc], hallocated, hschedule, ?_⟩
          exact (Nat.add_le_add_right (hburns h) _).trans hle
      | burnFrom _ _ _ h hallocations =>
          refine ⟨alloc, by rw [hallocations, halloc], hallocated, hschedule, ?_⟩
          exact (Nat.add_le_add_right (hburns h) _).trans hle
      | mint recipient amount token _ hairdrop hbalances _ hstorage =>
          refine ⟨alloc, by rw [hstorage, halloc], hallocated, hschedule, ?_⟩
          have hother : u ≠ recipient := by
            rintro rfl
            exact hcredit hairdrop
          rw [hstorage]
          show token.balanceOf u + _ ≤ _
          rw [balanceOf_save hbalances, if_neg hother]
          exact hle

/-- The total of the payments to an account. -/
def World.paid (w : World) (u : Addr) : Nat :=
  (w.trace.map fun payment => if payment.toAddress = u then payment.amount else 0).sum

theorem paid_append {payments : List BankSend} (h : w'.trace = w.trace ++ payments) (u : Addr) :
    w'.paid u = w.paid u +
      (payments.map fun payment => if payment.toAddress = u then payment.amount else 0).sum := by
  unfold World.paid
  rw [h, List.map_append, List.sum_append]

theorem paid_single {payee : Addr} {amount : Nat} (h : w'.trace = w.trace ++ [⟨payee, amount⟩])
    (u : Addr) : w'.paid u = w.paid u + if payee = u then amount else 0 := by
  rw [paid_append h]
  simp

theorem balanceOf_le_supply (hbacked : FullyBacked w) (u : Addr) :
    w.storage.token.balanceOf u ≤ w.storage.token.totalSupply := by
  rw [hbacked.supply]
  unfold Cw20State.balanceOf Cw20State.circulating
  cases hload : w.storage.token.balances.mayLoad u with
  | none => exact Nat.zero_le _
  | some balance => exact Map.le_sum hload fun _ b => b

/-- A positive balance is stored. -/
theorem mayLoad_of_balanceOf_pos {t : Cw20State} {u : Addr} (h : 0 < t.balanceOf u) :
    t.balances.mayLoad u = some (t.balanceOf u) := by
  unfold Cw20State.balanceOf at h ⊢
  cases hload : t.balances.mayLoad u with
  | none =>
      rw [hload] at h
      exact absurd h (Nat.lt_irrefl 0)
  | some balance => rfl

/-- What an account has can be burned, and the contract can pay it. -/
theorem burnAndSend_isOk (hburnable : cw20.Burnable) (hbacked : FullyBacked w)
    {info : MessageInfo} {amount : Nat} (hpos : 0 < amount)
    (hle : amount ≤ w.storage.token.balanceOf info.sender) :
    ∃ s, burnAndSend cw20 w.storage w.env info amount = .ok (s, [⟨info.sender, amount⟩]) := by
  have hsupply := balanceOf_le_supply hbacked info.sender
  obtain ⟨token, htoken⟩ := @hburnable.executeBurn_isOk w.storage.token w.env info amount hpos hle
    (hle.trans hsupply)
  refine ⟨{ w.storage with token := token }, ?_⟩
  unfold burnAndSend
  simp only [bind_eq_ok, mapError_eq_ok]
  exact ⟨token, htoken, rfl⟩

/-- A message whose handler burns what an account has and pays it. -/
theorem exec_burns_isOk (hburnable : cw20.Burnable) (hbacked : FullyBacked w)
    {info : MessageInfo} {msg : ExecuteMsg} {payee : Addr} {amount : Nat} (hpos : 0 < amount)
    (hle : amount ≤ w.storage.token.balanceOf payee) (hother : info.sender ≠ w.env.contract)
    (hmsg : Credits.execute cw20 w.storage w.env info msg =
      burnAndSend cw20 w.storage w.env { info with sender := payee } amount) :
    ∃ w', w.execute cw20 info msg = .ok w' := by
  obtain ⟨s, hs⟩ := @burnAndSend_isOk _ _ hburnable hbacked { info with sender := payee } _ hpos hle
  have hsupply := balanceOf_le_supply hbacked payee
  have hheld := hbacked.backed
  obtain ⟨w', hsend⟩ := @World.send_of_le
    { w with storage := s, held := w.held + untrnIn info.funds } ⟨payee, amount⟩ (by
      show amount ≤ w.held + untrnIn info.funds
      omega)
  unfold World.execute
  simp only [bind_eq_ok, mapError_eq_ok, rejectIf_eq_ok, exists_const, hmsg]
  exact ⟨w', hother, _, hs, foldlM_singleton_ok.mpr hsend⟩

/-- The airdrop contract can burn what it has. -/
theorem exec_burn_isOk (hburnable : cw20.Burnable) (hbacked : FullyBacked w)
    {info : MessageInfo} {amount : Nat} (hpos : 0 < amount)
    (hle : amount ≤ w.storage.token.balanceOf info.sender) (hother : info.sender ≠ w.env.contract)
    (hairdrop : w.storage.config.airdropAddress = some info.sender) :
    ∃ w', w.execute cw20 info (.burn amount) = .ok w' := by
  refine exec_burns_isOk hburnable hbacked hpos hle hother ?_
  simp [Credits.execute, executeBurn, onlyAirdrop, hairdrop, okOr, rejectIf, bind, Except.bind]

/-- The lockdrop can burn what an account has. -/
theorem exec_burnFrom_isOk (hburnable : cw20.Burnable) (hbacked : FullyBacked w)
    {info : MessageInfo} {owner : Addr} {amount : Nat} (hpos : 0 < amount)
    (hle : amount ≤ w.storage.token.balanceOf owner) (hother : info.sender ≠ w.env.contract)
    (hlockdrop : w.storage.config.lockdropAddress = some info.sender) :
    ∃ w', w.execute cw20 info (.burnFrom owner amount) = .ok w' := by
  refine exec_burns_isOk hburnable hbacked hpos hle hother ?_
  simp [Credits.execute, executeBurnFrom, hlockdrop, okOr, rejectIf, bind, Except.bind]

/-- A withdrawal succeeds when the allocation offers something and the account has something. -/
theorem exec_withdraw_isOk (hburnable : cw20.Burnable) {info : MessageInfo} {a : Allocation}
    {whenWithdrawable : Nat} (hbacked : FullyBacked w) (hfits : a.Fits)
    (ha : w.storage.allocations.mayLoad info.sender = some a)
    (hwhen : w.storage.config.whenWithdrawable = some whenWithdrawable)
    (hopen : whenWithdrawable ≤ w.env.time) (hother : info.sender ≠ w.env.contract)
    (hoffers : a.withdrawnAmount < a.vested w.env.time)
    (hsome : 0 < w.storage.token.balanceOf info.sender) :
    ∃ w', w.exec cw20 (.execute info .withdraw) = .ok w' := by
  generalize hbalanceOf : w.storage.token.balanceOf info.sender = balance at hsome
  have hbalance : w.storage.token.balances.mayLoad info.sender = some balance := by
    rw [← hbalanceOf] at hsome ⊢
    exact mayLoad_of_balanceOf_pos hsome
  have hsupply := balanceOf_le_supply hbacked info.sender
  have hheld := hbacked.backed
  have hvested := (vestedAt_le a.schedule a.allocatedAmount w.env.time).trans_lt hfits.amount_lt
  change a.vested w.env.time < _ at hvested
  -- what is withdrawn, which the account has and the allocation offers
  generalize hamount : min (a.vested w.env.time - a.withdrawnAmount) balance = amount
  have hpos : 0 < amount := by omega
  obtain ⟨token, htoken⟩ := @hburnable.executeBurn_isOk w.storage.token w.env info amount hpos
    (by omega) (by omega)
  have hhandler : ∃ s, executeWithdraw cw20 w.storage w.env info =
      .ok (s, [⟨info.sender, amount⟩]) := by
    unfold executeWithdraw burnAndSend
    simp only [bind_eq_ok, mapError_eq_ok, rejectIf_eq_ok, exists_const, okOr_eq_ok,
      Map.load_eq_ok, Uint.add_eq_ok]
    refine ⟨{ w.storage with
      token := token
      allocations := w.storage.allocations.save info.sender
        { a with withdrawnAmount := a.withdrawnAmount + amount } }, whenWithdrawable, hwhen,
      Nat.not_lt_of_le hopen, a, ha, _, hbacked.computes ha hfits, by omega, balance, hbalance, ?_⟩
    rw [hamount]
    exact ⟨hpos.ne', _, ⟨by omega, rfl⟩, token, htoken, rfl⟩
  obtain ⟨s, hs⟩ := hhandler
  have hcovered : amount ≤ w.held + untrnIn info.funds := by omega
  obtain ⟨w', hsend⟩ := @World.send_of_le
    { w with storage := s, held := w.held + untrnIn info.funds } ⟨info.sender, amount⟩ hcovered
  show ∃ w', w.execute cw20 info .withdraw = .ok w'
  unfold World.execute Credits.execute
  simp only [bind_eq_ok, mapError_eq_ok, rejectIf_eq_ok, exists_const]
  exact ⟨w', hother, _, hs, foldlM_singleton_ok.mpr hsend⟩

/-- At the end of the schedule a withdrawal pays the whole balance. -/
theorem Within.redeems (hcw20 : cw20.Lawful) (hburnable : cw20.Burnable) {u : Addr}
    {allocated : Nat} {schedule : Schedule} {info : MessageInfo} {whenWithdrawable : Nat}
    (hwithin : Within u allocated schedule w) (hbacked : FullyBacked w)
    (hamount : allocated < 2 ^ 128) (hend : schedule.startTime + schedule.duration < 2 ^ 64)
    (hwhen : w.storage.config.whenWithdrawable = some whenWithdrawable)
    (hopen : whenWithdrawable ≤ w.env.time)
    (hover : schedule.startTime + schedule.duration ≤ w.env.time) (hsender : info.sender = u)
    (hother : u ≠ w.env.contract) (hsome : 0 < w.storage.token.balanceOf u) :
    ∃ w', w.exec cw20 (.execute info .withdraw) = .ok w' ∧
      w'.storage.token.balanceOf u = 0 ∧
      w'.paid u = w.paid u + w.storage.token.balanceOf u := by
  subst hsender
  obtain ⟨a, ha, rfl, rfl, hle⟩ := hwithin.stored
  have hfits : a.Fits := ⟨hamount, hend⟩
  have hall : a.vested w.env.time = a.allocatedAmount := by
    unfold Allocation.vested Schedule.vestedAt
    have hcliff : a.schedule.cliff = 0 := hbacked.cliff _ a ha
    rw [if_neg (by omega), if_neg (by omega)]
  obtain ⟨w', hexec⟩ := exec_withdraw_isOk hburnable hbacked hfits ha hwhen hopen hother
    (by omega) hsome
  obtain ⟨payments, heffect, -, htrace, -⟩ := World.execute_ok hcw20 hexec
  refine ⟨w', hexec, ?_⟩
  cases heffect with
  | withdraw allocation withdrawable amount hwithdraws =>
      obtain rfl := Option.some.inj (hwithdraws.allocation_eq.symm.trans ha)
      have hoffered := computeWithdrawableAmount_ok hwithdraws.withdrawable_eq
      change _ = allocation.vested w.env.time at hoffered
      -- the allocation offers at least the balance
      have hwhole : amount = w.storage.token.balanceOf info.sender := by
        rw [hwithdraws.amount_eq]
        omega
      constructor
      · rw [balanceOf_save hwithdraws.burns.balances, if_pos rfl, hwhole, Nat.sub_self]
      · unfold World.paid
        rw [htrace, ← hwhole]
        simp

/-! ### Runs -/

/-- The account whose cNTRN a message burns. -/
def ExecuteMsg.burned (sender : Addr) : ExecuteMsg → Option Addr
  | .withdraw => some sender
  | .burn _ => some sender
  | .burnFrom owner _ => some owner
  | _ => none

/-- What holders of cNTRN can rely on. -/
structure Redeemable (cw20 : Cw20Base) (w : World) : Prop where
  /-- The contract holds the untrn for the supply. -/
  backed : w.storage.token.totalSupply ≤ w.held
  /-- The supply is the sum of the balances. -/
  supply : w.storage.token.totalSupply = w.storage.token.balances.sum fun _ balance => balance
  /-- No more is withdrawn than was vested. -/
  vested : ∀ {u : Addr} {a : Allocation}, w.storage.allocations.mayLoad u = some a →
    a.withdrawnAmount ≤ a.schedule.vestedAt a.allocatedAmount w.env.time
  /-- So the rest can be computed, unless the end of the schedule does not fit. -/
  computes : ∀ {u : Addr} {a : Allocation}, w.storage.allocations.mayLoad u = some a → a.Fits →
    ∃ amount, computeWithdrawableAmount a.allocatedAmount a.withdrawnAmount a.schedule
      w.env.time = .ok amount
  /-- What is burned is paid, to the account it was burned from. -/
  pays : ∀ {info : MessageInfo} {msg : ExecuteMsg} {w' : World} {payee : Addr},
    w.exec cw20 (.execute info msg) = .ok w' → msg.burned info.sender = some payee →
    ∃ amount, Burns w.storage w'.storage payee amount ∧ w'.trace = w.trace ++ [⟨payee, amount⟩]
  /-- Who started with his allocation as his balance is paid all that is left of it by one
  `Withdraw` at the end, whatever was withdrawn and burned before. -/
  redeems : ∀ {u : Addr} {a : Allocation} {as : List Action} {info : MessageInfo}
    {whenWithdrawable : Nat} {v : World}, w.storage.allocations.mayLoad u = some a →
    a.withdrawnAmount = 0 → w.storage.token.balanceOf u = a.allocatedAmount → a.Fits →
    Along (World.exec cw20) (NotCredited u) w as → run (World.exec cw20) w as = v →
    v.storage.config.whenWithdrawable = some whenWithdrawable →
    whenWithdrawable ≤ v.env.time →
    a.schedule.startTime + a.schedule.duration ≤ v.env.time → info.sender = u →
    u ≠ v.env.contract →
    (run (World.exec cw20) v [.execute info .withdraw]).storage.token.balanceOf u = 0 ∧
      (run (World.exec cw20) v [.execute info .withdraw]).paid u =
        v.paid u + v.storage.token.balanceOf u

theorem Effect.burns {s s' : Storage} {env : Env} {info : MessageInfo} {msg : ExecuteMsg}
    {payments : List BankSend} (h : Effect s s' env info msg payments) {payee : Addr}
    (hburned : msg.burned info.sender = some payee) :
    ∃ amount, Burns s s' payee amount ∧ payments = [⟨payee, amount⟩] := by
  cases h with
  | withdraw _ _ amount hwithdraws =>
      obtain rfl := Option.some.inj hburned
      exact ⟨amount, hwithdraws.burns, rfl⟩
  | burn amount _ hburns =>
      obtain rfl := Option.some.inj hburned
      exact ⟨amount, hburns, rfl⟩
  | burnFrom _ amount _ hburns =>
      obtain rfl := Option.some.inj hburned
      exact ⟨amount, hburns, rfl⟩
  | _ => cases hburned

/-- An account without a balance withdraws nothing. -/
theorem commit_withdraw_zero (hcw20 : cw20.Lawful) {info : MessageInfo}
    (hzero : w.storage.token.balanceOf info.sender = 0) :
    commit (World.exec cw20) w (.execute info .withdraw) = w := by
  rcases commit_cases (World.exec cw20) w (.execute info .withdraw) with hok | hsame
  · obtain ⟨payments, heffect, -⟩ := World.execute_ok hcw20 hok
    cases heffect with
    | withdraw _ _ _ hwithdraws =>
        have hpos := hwithdraws.amount_pos
        have hle := hwithdraws.burns.amount_le
        omega
  · exact hsame

/-- cNTRN is backed and redeemable in every state of every run. -/
theorem redeemable_of_run (hcw20 : cw20.Lawful) (hburnable : cw20.Burnable) {w₀ : World}
    (hstarted : Started w₀) (as : List Action) :
    Redeemable cw20 (run (World.exec cw20) w₀ as) := by
  have hbacked : FullyBacked (run (World.exec cw20) w₀ as) :=
    (FullyBacked.start hstarted).run hcw20 as
  generalize run (World.exec cw20) w₀ as = w at hbacked
  constructor
  · exact hbacked.backed
  · exact hbacked.supply
  · exact fun ha => hbacked.vested _ _ ha
  · exact fun ha hfits => ⟨_, hbacked.computes ha hfits⟩
  · intro info msg w' payee hexec hburned
    obtain ⟨payments, heffect, -, htrace, -⟩ := World.execute_ok hcw20 hexec
    obtain ⟨amount, hburns, rfl⟩ := heffect.burns hburned
    exact ⟨amount, hburns, htrace⟩
  · intro u a as' info whenWithdrawable v ha hzero hbalance hfits halong hrun hwhen hopen hover
      hsender hother
    have hstart : Within u a.allocatedAmount a.schedule w := by
      refine ⟨a, ha, rfl, rfl, ?_⟩
      rw [hzero, hbalance]
      exact Nat.le_refl _
    have hwithin : Within u a.allocatedAmount a.schedule (run (World.exec cw20) w as') :=
      run_invariant_along (Within u a.allocatedAmount a.schedule)
        (fun _ _ _ ht hP hexec => ht.exec hcw20 hP hexec) hstart halong
    have hbacked' := hbacked.run hcw20 as'
    rw [hrun] at hwithin hbacked'
    rw [run_cons, run_nil]
    rcases Nat.eq_zero_or_pos (v.storage.token.balanceOf u) with hnone | hsome
    · rw [commit_withdraw_zero hcw20 (hsender ▸ hnone), hnone]
      exact ⟨rfl, rfl⟩
    · obtain ⟨v', hexec, hempty, hpaid⟩ := hwithin.redeems hcw20 hburnable hbacked'
        hfits.amount_lt hfits.end_lt hwhen hopen hover hsender hother hsome
      rw [commit_of_ok (World.exec cw20) hexec]
      exact ⟨hempty, hpaid⟩

/-! ### A sample token -/

/-- `cw20-base` without its snapshots and allowances. -/
def cw20Base : Cw20Base where
  executeMint t _ info recipient amount :=
    if amount = 0 then .error "Invalid zero amount"
    else if info.sender ≠ t.minter then .error "Unauthorized"
    else .ok { t with
      totalSupply := t.totalSupply + amount
      balances := t.balances.save recipient (t.balanceOf recipient + amount) }
  executeTransfer t _ info recipient amount :=
    if amount = 0 then .error "Invalid zero amount"
    else if t.balanceOf info.sender < amount then .error "Overflow"
    else
      let balances := t.balances.save info.sender (t.balanceOf info.sender - amount)
      .ok { t with
        balances := balances.save recipient ((balances.mayLoad recipient).getD 0 + amount) }
  executeBurn t _ info amount :=
    if amount = 0 then .error "Invalid zero amount"
    else if t.balanceOf info.sender < amount ∨ t.totalSupply < amount then .error "Overflow"
    else .ok { t with
      totalSupply := t.totalSupply - amount
      balances := t.balances.save info.sender (t.balanceOf info.sender - amount) }

theorem cw20Base_lawful : cw20Base.Lawful where
  executeMint_ok := by
    intro t t' env info recipient amount h
    simp only [cw20Base] at h
    split_ifs at h with hzero hminter
    obtain rfl := Except.ok.inj h
    exact ⟨not_not.mp hminter, rfl, rfl, rfl⟩
  executeTransfer_ok := by
    intro t t' env info recipient amount h
    simp only [cw20Base] at h
    split_ifs at h with hzero hless
    obtain rfl := Except.ok.inj h
    exact ⟨Nat.le_of_not_lt hless, rfl, rfl, _, rfl, rfl⟩
  executeBurn_ok := by
    intro t t' env info amount h
    simp only [cw20Base] at h
    split_ifs at h with hzero hless
    obtain rfl := Except.ok.inj h
    obtain ⟨hbalance, hsupply⟩ := not_or.mp hless
    exact ⟨Nat.le_of_not_lt hbalance, Nat.le_of_not_lt hsupply, rfl, rfl, rfl⟩

theorem cw20Base_burnable : cw20Base.Burnable where
  executeBurn_isOk := by
    intro t env info amount hpos hbalance hsupply
    simp only [cw20Base]
    rw [if_neg hpos.ne', if_neg (by omega)]
    exact ⟨_, rfl⟩

/-- The credits contract right after `instantiate`. -/
def sampleStart : World where
  storage := instantiate "dao"
  held := 0
  env := ⟨0, 1, "credits"⟩
  trace := []

theorem sampleStart_started : Started sampleStart := ⟨⟨"dao", rfl⟩, rfl⟩

/-- alice gets an allocation of 100 and as much cNTRN. -/
def sampleAllocation (startTime duration : Nat) : List Action :=
  [.execute ⟨"dao", []⟩ (.updateConfig ⟨some "airdrop", some "lockdrop", some 20⟩),
    .execute ⟨"dao", [⟨"untrn", 100⟩]⟩ .mint,
    .execute ⟨"airdrop", []⟩ (.transfer "alice" 100),
    .execute ⟨"airdrop", []⟩ (.addVesting "alice" 100 startTime duration)]

theorem redeemable_of_run_sample :
    Redeemable cw20Base (run (World.exec cw20Base) sampleStart (sampleAllocation 10 100)) :=
  redeemable_of_run cw20Base_lawful cw20Base_burnable sampleStart_started _

/-- alice withdraws 50 when 50 of 100 have vested, the lockdrop burns 30, and 20 are left for
her. -/
example :
    let w := run (World.exec cw20Base) sampleStart (sampleAllocation 10 100 ++ [.advance 60 1,
      .execute ⟨"alice", []⟩ .withdraw, .execute ⟨"lockdrop", []⟩ (.burnFrom "alice" 30),
      .advance 50 1, .execute ⟨"alice", []⟩ .withdraw])
    w.trace = [⟨"alice", 50⟩, ⟨"alice", 30⟩, ⟨"alice", 20⟩] ∧ w.held = 0 := by
  decide +kernel

/-- A schedule whose end does not fit into 64 bits: nothing can be computed once it has
started, and alice cannot withdraw. -/
theorem endless_schedule :
    Started sampleStart ∧ ∃ w, run (World.exec cw20Base) sampleStart
        (sampleAllocation 1 (2 ^ 64 - 1) ++ [.advance 30 1]) = w ∧
      w.storage.allocations.mayLoad "alice" = some ⟨100, 0, ⟨1, 0, 2 ^ 64 - 1⟩⟩ ∧
      (computeWithdrawableAmount 100 0 ⟨1, 0, 2 ^ 64 - 1⟩ w.env.time).isOk = false ∧
      (w.exec cw20Base (.execute ⟨"alice", []⟩ .withdraw)).isOk = false :=
  ⟨sampleStart_started, _, rfl, by decide +kernel⟩

end NeutronTge.Credits
