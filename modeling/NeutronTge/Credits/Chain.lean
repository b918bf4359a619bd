import NeutronTge.CosmWasm.Run
import NeutronTge.Credits.Contract

/-!
# NeutronTge.Credits.Chain

The credits contract on its chain: its storage, the untrn it holds, and what each message
does. The untrn of a call arrives before the call is executed, and what the call sends is
taken from the contract. `Effect` says everything a message does to the storage, for every
`cw20-base` that behaves as documented.
-/

namespace NeutronTge.Credits

open CosmWasm

/-- The credits contract with its untrn and the time. -/
structure World where
  storage : Storage
  /-- The untrn of the contract. -/
  held : Nat
  env : Env
  /-- The payments that went out. -/
  trace : List BankSend

/-- The untrn among some coins. -/
def untrnIn (funds : List Coin) : Nat :=
  ((funds.filter fun coin => coin.denom = depositedSymbol).map Coin.amount).sum

/-- A payment leaves the contract, unless the contract pays itself. -/
def World.send (w : World) (payment : BankSend) : Except StdError World := do
  let rest ← Uint.checkedSub w.held payment.amount
  .ok { w with
    held := if payment.toAddress = w.env.contract then w.held else rest
    trace := w.trace ++ [payment] }

/-- A transaction that somebody sends to the contract. -/
def World.execute (cw20 : Cw20Base) (w : World) (info : MessageInfo) (msg : ExecuteMsg) :
    Except ContractError World := do
  rejectIf (info.sender = w.env.contract) (.std .aborted)
  let (s, payments) ← Credits.execute cw20 w.storage w.env info msg
  (payments.foldlM World.send
    { w with storage := s, held := w.held + untrnIn info.funds }).mapError .std

/-- What happens in a run. -/
inductive Action
  /-- Time passes. -/
  | advance (seconds blocks : Nat)
  /-- Somebody sends untrn to the contract. -/
  | donate (amount : Nat)
  | execute (info : MessageInfo) (msg : ExecuteMsg)

/-- One action of a run. -/
def World.exec (cw20 : Cw20Base) (w : World) : Action → Except ContractError World
  | .advance seconds blocks =>
      .ok { w with env :=
        { w.env with time := w.env.time + seconds, height := w.env.height + blocks } }
  | .donate amount => .ok { w with held := w.held + amount }
  | .execute info msg => w.execute cw20 info msg

/-- The contract right after `instantiate`. -/
structure Started (w : World) : Prop where
  storage : ∃ daoAddress, w.storage = instantiate daoAddress
  trace : w.trace = []

/-! ### What the messages do -/

section Effects

variable {cw20 : Cw20Base} {s s' : Storage} {env : Env} {info : MessageInfo}

/-- cNTRN of an account is burned. -/
structure Burns (s s' : Storage) (payee : Addr) (amount : Nat) : Prop where
  amount_le : amount ≤ s.token.balanceOf payee
  supply_le : amount ≤ s.token.totalSupply
  totalSupply : s'.token.totalSupply = s.token.totalSupply - amount
  balances : s'.token.balances = s.token.balances.save payee (s.token.balanceOf payee - amount)
  config : s'.config = s.config

theorem burnAndSend_ok (hcw20 : cw20.Lawful) {amount : Nat} {payments : List BankSend}
    (h : burnAndSend cw20 s env info amount = .ok (s', payments)) :
    Burns s s' info.sender amount ∧ s'.allocations = s.allocations ∧
      payments = [⟨info.sender, amount⟩] := by
  unfold burnAndSend at h
  simp only [bind_eq_ok, mapError_eq_ok, Except.ok.injEq, Prod.mk.injEq] at h
  obtain ⟨token, hburn, rfl, rfl⟩ := h
  obtain ⟨hle, hsupply, -, htotal, hbalances⟩ := hcw20.executeBurn_ok hburn
  exact ⟨⟨hle, hsupply, htotal, hbalances, rfl⟩, rfl, rfl⟩

theorem onlyAirdrop_ok {u : Unit} (h : onlyAirdrop s info = .ok u) :
    s.config.airdropAddress = some info.sender := by
  unfold onlyAirdrop at h
  simp only [bind_eq_ok, okOr_eq_ok, rejectIf_eq_ok, not_not] at h
  obtain ⟨airdrop, hairdrop, rfl⟩ := h
  exact hairdrop

/-- A withdrawal: what was vested and not yet withdrawn, or the whole balance if that is
less. -/
structure Withdraws (s s' : Storage) (env : Env) (owner : Addr) (allocation : Allocation)
    (withdrawable amount : Nat) : Prop where
  open_ : ∃ whenWithdrawable, s.config.whenWithdrawable = some whenWithdrawable ∧
    whenWithdrawable ≤ env.time
  allocation_eq : s.allocations.mayLoad owner = some allocation
  withdrawable_eq : computeWithdrawableAmount allocation.allocatedAmount
    allocation.withdrawnAmount allocation.schedule env.time = .ok withdrawable
  amount_eq : amount = min withdrawable (s.token.balanceOf owner)
  amount_pos : 0 < amount
  allocations : s'.allocations = s.allocations.save owner
    { allocation with withdrawnAmount := allocation.withdrawnAmount + amount }
  burns : Burns s s' owner amount

theorem executeWithdraw_ok (hcw20 : cw20.Lawful) {payments : List BankSend}
    (h : executeWithdraw cw20 s env info = .ok (s', payments)) :
    ∃ allocation withdrawable amount,
      Withdraws s s' env info.sender allocation withdrawable amount ∧
        payments = [⟨info.sender, amount⟩] := by
  unfold executeWithdraw at h
  simp only [bind_eq_ok, mapError_eq_ok, okOr_eq_ok, rejectIf_eq_ok, exists_const,
    Map.load_eq_ok, Uint.add_eq_ok] at h
  obtain ⟨whenWithdrawable, hwhen, hopen, allocation, hallocation, withdrawable, hwithdrawable,
    -, balance, hbalance, hpos, _, ⟨-, rfl⟩, hburn⟩ := h
  obtain ⟨hburns, hallocations, hpayments⟩ := burnAndSend_ok hcw20 hburn
  have hbalanceOf : s.token.balanceOf info.sender = balance := by
    rw [Cw20State.balanceOf, hbalance, Option.getD_some]
  refine ⟨allocation, withdrawable, min withdrawable balance, ?_, hpayments⟩
  constructor
  · exact ⟨whenWithdrawable, hwhen, Nat.le_of_not_lt hopen⟩
  · exact hallocation
  · exact hwithdrawable
  · rw [hbalanceOf]
  · exact Nat.pos_of_ne_zero hpos
  · exact hallocations
  · exact ⟨hburns.amount_le, hburns.supply_le, hburns.totalSupply, hburns.balances,
      hburns.config⟩

/-- What each message does, and what it pays. -/
inductive Effect (s s' : Storage) (env : Env) (info : MessageInfo) :
    ExecuteMsg → List BankSend → Prop
  | configure (config : UpdateConfigMsg) (htoken : s'.token = s.token)
      (hallocations : s'.allocations = s.allocations) :
      Effect s s' env info (.updateConfig config) []
  | addVesting (address : Addr) (amount startTime duration : Nat)
      (hbalance : amount ≤ s.token.balanceOf address)
      (hnew : s.allocations.mayLoad address = none)
      (hstorage : s' = { s with
        allocations :=
          s.allocations.save address ⟨amount, 0, ⟨startTime, vestingCliff, duration⟩⟩ }) :
      Effect s s' env info (.addVesting address amount startTime duration) []
  | transfer (recipient : Addr) (amount : Nat) (token : Cw20State) (left : Map Addr Nat)
      (hle : amount ≤ s.token.balanceOf info.sender)
      (hleft : left = s.token.balances.save info.sender
        (s.token.balanceOf info.sender - amount))
      (hbalances : token.balances =
        left.save recipient ((left.mayLoad recipient).getD 0 + amount))
      (hsupply : token.totalSupply = s.token.totalSupply)
      (hstorage : s' = { s with token := token }) :
      Effect s s' env info (.transfer recipient amount) []
  | withdraw (allocation : Allocation) (withdrawable amount : Nat)
      (h : Withdraws s s' env info.sender allocation withdrawable amount) :
      Effect s s' env info .withdraw [⟨info.sender, amount⟩]
  | burn (amount : Nat) (hairdrop : s.config.airdropAddress = some info.sender)
      (h : Burns s s' info.sender amount) (hallocations : s'.allocations = s.allocations) :
      Effect s s' env info (.burn amount) [⟨info.sender, amount⟩]
  | burnFrom (owner : Addr) (amount : Nat)
      (hlockdrop : s.config.lockdropAddress = some info.sender)
      (h : Burns s s' owner amount) (hallocations : s'.allocations = s.allocations) :
      Effect s s' env info (.burnFrom owner amount) [⟨owner, amount⟩]
  | mint (recipient : Addr) (amount : Nat) (token : Cw20State)
      (hfunds : info.funds.head? = some ⟨depositedSymbol, amount⟩)
      (hairdrop : s.config.airdropAddress = some recipient)
      (hbalances : token.balances =
        s.token.balances.save recipient (s.token.balanceOf recipient + amount))
      (hsupply : token.totalSupply = s.token.totalSupply + amount)
      (hstorage : s' = { s with token := token }) : Effect s s' env info .mint []

theorem tryFindUntrns_ok {funds : List Coin} {amount : Nat}
    (h : tryFindUntrns funds = .ok amount) : funds.head? = some ⟨depositedSymbol, amount⟩ := by
  unfold tryFindUntrns at h
  simp only [bind_eq_ok, okOr_eq_ok, rejectIf_eq_ok, exists_const, not_not,
    Except.ok.injEq] at h
  obtain ⟨coin, hcoin, hdenom, rfl⟩ := h
  rw [hcoin, ← hdenom]

theorem execute_effect (hcw20 : cw20.Lawful) {msg : ExecuteMsg} {payments : List BankSend}
    (h : execute cw20 s env info msg = .ok (s', payments)) :
    Effect s s' env info msg payments := by
  cases msg with
  | updateConfig config =>
      simp only [execute, executeUpdateConfig, bind_eq_ok, rejectIf_eq_ok, exists_const,
        Except.ok.injEq, Prod.mk.injEq] at h
      obtain ⟨_, ⟨-, rfl⟩, rfl, rfl⟩ := h
      exact Effect.configure config rfl rfl
  | addVesting address amount startTime duration =>
      simp only [execute, executeAddVesting, bind_eq_ok, rejectIf_eq_ok, exists_const,
        Except.ok.injEq, Prod.mk.injEq] at h
      obtain ⟨_, ⟨-, -, hbalance, hnew, rfl⟩, rfl, rfl⟩ := h
      have hnone : s.allocations.mayLoad address = none := by
        simpa [Map.has] using hnew
      exact Effect.addVesting address amount startTime duration (Nat.le_of_not_lt hbalance)
        hnone rfl
  | transfer recipient amount =>
      simp only [execute, executeTransfer, bind_eq_ok, mapError_eq_ok, Except.ok.injEq,
        Prod.mk.injEq] at h
      obtain ⟨_, ⟨-, -, token, htransfer, rfl⟩, rfl, rfl⟩ := h
      obtain ⟨hle, -, hsupply, left, hleft, hbalances⟩ := hcw20.executeTransfer_ok htransfer
      exact Effect.transfer recipient amount token left hle hleft hbalances hsupply rfl
  | withdraw =>
      obtain ⟨allocation, withdrawable, amount, hwithdraws, rfl⟩ := executeWithdraw_ok hcw20 h
      exact Effect.withdraw allocation withdrawable amount hwithdraws
  | burn amount =>
      simp only [execute, executeBurn, bind_eq_ok] at h
      obtain ⟨_, hairdrop, hburn⟩ := h
      obtain ⟨hburns, hallocations, rfl⟩ := burnAndSend_ok hcw20 hburn
      exact Effect.burn amount (onlyAirdrop_ok hairdrop) hburns hallocations
  | burnFrom owner amount =>
      simp only [execute, executeBurnFrom, bind_eq_ok, okOr_eq_ok, rejectIf_eq_ok, exists_const,
        not_not] at h
      obtain ⟨lockdrop, hlockdrop, rfl, hburn⟩ := h
      obtain ⟨hburns, hallocations, rfl⟩ := burnAndSend_ok hcw20 hburn
      exact Effect.burnFrom owner amount hlockdrop hburns hallocations
  | mint =>
      simp only [execute, executeMint, bind_eq_ok, okOr_eq_ok, mapError_eq_ok, Except.ok.injEq,
        Prod.mk.injEq] at h
      obtain ⟨_, ⟨amount, hfunds, recipient, hairdrop, token, hmint, rfl⟩, rfl, rfl⟩ := h
      obtain ⟨-, -, hsupply, hbalances⟩ := hcw20.executeMint_ok hmint
      exact Effect.mint recipient amount token (tryFindUntrns_ok hfunds) hairdrop hbalances
        hsupply rfl

/-- The contract can pay what it holds. -/
theorem World.send_of_le {w : World} {payment : BankSend} (h : payment.amount ≤ w.held) :
    ∃ w', w.send payment = .ok w' := by
  unfold World.send
  simp only [bind_eq_ok, Uint.checkedSub_eq_ok]
  exact ⟨_, _, ⟨h, rfl⟩, rfl⟩

/-- Payments that went through. -/
theorem foldlM_send : ∀ {payments : List BankSend} {w w' : World},
    payments.foldlM World.send w = .ok w' →
      w'.storage = w.storage ∧ w'.env = w.env ∧ w'.trace = w.trace ++ payments ∧
        w.held ≤ w'.held + (payments.map BankSend.amount).sum := by
  intro payments
  induction payments with
  | nil =>
      intro w w' h
      obtain rfl := Except.ok.inj h
      simp
  | cons payment payments ih =>
      intro w w' h
      obtain ⟨t, ht, hrest⟩ := foldlM_cons_ok.mp h
      obtain ⟨hstorage, henv, htrace, hheld⟩ := ih hrest
      simp only [World.send, bind_eq_ok, Uint.checkedSub_eq_ok, Except.ok.injEq] at ht
      obtain ⟨_, ⟨hle, rfl⟩, rfl⟩ := ht
      refine ⟨hstorage, henv, by simp [htrace], ?_⟩
      dsimp only at hheld
      rw [List.map_cons, List.sum_cons]
      split_ifs at hheld <;> omega

/-- A transaction is a handler followed by its payments. -/
theorem World.execute_ok (hcw20 : cw20.Lawful) {w w' : World} {msg : ExecuteMsg}
    (h : w.execute cw20 info msg = .ok w') :
    ∃ payments, Effect w.storage w'.storage w.env info msg payments ∧ w'.env = w.env ∧
      w'.trace = w.trace ++ payments ∧
      w.held + untrnIn info.funds ≤ w'.held + (payments.map BankSend.amount).sum := by
  unfold World.execute at h
  simp only [bind_eq_ok, rejectIf_eq_ok, exists_const, mapError_eq_ok] at h
  obtain ⟨-, ⟨s, payments⟩, hexec, hsend⟩ := h
  obtain ⟨rfl, henv, htrace, hheld⟩ := foldlM_send hsend
  exact ⟨payments, execute_effect hcw20 hexec, henv, htrace, hheld⟩

end Effects

end NeutronTge.Credits
