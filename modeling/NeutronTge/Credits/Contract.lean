import NeutronTge.CosmWasm.Storage
import NeutronTge.CosmWasm.Message

/-!
# NeutronTge.Credits.Contract

The `credits` contract: cNTRN, a token that is redeemed one to one for untrn, and the
schedule by which an account may redeem it.

* `Withdraw` redeems what the schedule has vested and books it in the allocation.
* `BurnFrom`, which only the lockdrop may call, redeems any amount of an account. It
  skips the vesting and does not book anything in the allocation.

The balances are kept by the `cw20-base` package. It is a parameter of the contract
(`Cw20Base`), and `Cw20Base.Lawful` states its documented behaviour.
-/

namespace NeutronTge.Credits

open CosmWasm

/-! ### The token -/

/-- `BALANCES` and `TOKEN_INFO` of `cw20-base`. -/
structure Cw20State where
  balances : Map Addr Nat
  totalSupply : Nat
  minter : Addr

/-- The balance of an account, zero when there is no entry. -/
def Cw20State.balanceOf (t : Cw20State) (addr : Addr) : Nat := (t.balances.mayLoad addr).getD 0

/-- The functions of `cw20-base` that the contract calls. -/
structure Cw20Base where
  executeMint : Cw20State → Env → MessageInfo → Addr → Nat → Except String Cw20State
  executeTransfer : Cw20State → Env → MessageInfo → Addr → Nat → Except String Cw20State
  executeBurn : Cw20State → Env → MessageInfo → Nat → Except String Cw20State

/-- Minting, transferring and burning change the balances and the supply by exactly the
amount, and nobody gives away more than he has. -/
structure Cw20Base.Lawful (cw20 : Cw20Base) : Prop where
  executeMint_ok : ∀ {t t' env info recipient amount},
    cw20.executeMint t env info recipient amount = .ok t' →
      info.sender = t.minter ∧ t'.minter = t.minter ∧
        t'.totalSupply = t.totalSupply + amount ∧
        t'.balances = t.balances.save recipient (t.balanceOf recipient + amount)
  executeTransfer_ok : ∀ {t t' env info recipient amount},
    cw20.executeTransfer t env info recipient amount = .ok t' →
      amount ≤ t.balanceOf info.sender ∧ t'.minter = t.minter ∧
        t'.totalSupply = t.totalSupply ∧
        ∃ m, m = t.balances.save info.sender (t.balanceOf info.sender - amount) ∧
          t'.balances = m.save recipient ((m.mayLoad recipient).getD 0 + amount)
  executeBurn_ok : ∀ {t t' env info amount},
    cw20.executeBurn t env info amount = .ok t' →
      amount ≤ t.balanceOf info.sender ∧ amount ≤ t.totalSupply ∧ t'.minter = t.minter ∧
        t'.totalSupply = t.totalSupply - amount ∧
        t'.balances = t.balances.save info.sender (t.balanceOf info.sender - amount)

/-! ### Storage and messages -/

/-- The contracts that may mint, burn and add vesting, and the time from which tokens are
redeemable. -/
structure Config where
  daoAddress : Addr
  airdropAddress : Option Addr
  lockdropAddress : Option Addr
  whenWithdrawable : Option Nat
  deriving Repr, DecidableEq

/-- When an allocation vests: evenly over a duration, and nothing before the cliff. -/
structure Schedule where
  startTime : Nat
  cliff : Nat
  duration : Nat
  deriving Repr, DecidableEq

/-- What an account got from the airdrop, and what it has redeemed. -/
structure Allocation where
  allocatedAmount : Nat
  /-- Does not include what `BurnFrom` paid out. -/
  withdrawnAmount : Nat
  schedule : Schedule
  deriving Repr, DecidableEq

/-- The storage of the contract, that of the cw20 token included. -/
structure Storage where
  config : Config
  token : Cw20State
  allocations : Map Addr Allocation

/-- The new values of the configuration; a missing one keeps the old. -/
structure UpdateConfigMsg where
  airdropAddress : Option Addr
  lockdropAddress : Option Addr
  whenWithdrawable : Option Nat
  deriving Repr, DecidableEq

/-- The messages of the contract. -/
inductive ExecuteMsg
  | updateConfig (config : UpdateConfigMsg)
  | addVesting (address : Addr) (amount startTime duration : Nat)
  | transfer (recipient : Addr) (amount : Nat)
  | withdraw
  | burn (amount : Nat)
  | burnFrom (owner : Addr) (amount : Nat)
  | mint
  deriving Repr, DecidableEq

/-- The errors of the contract. -/
inductive ContractError
  | std (e : StdError)
  | unauthorized
  | tooEarlyToClaim
  | noFundsToClaim
  | incorrectFundsSupplied
  | noFundsSupplied
  | airdropNotConfigured
  | lockdropNotConfigured
  | whenWithdrawableIsNotConfigured
  | alreadyVested (address : Addr)
  | cw20Error (e : String)
  deriving Repr, DecidableEq

/-- `BankMsg::Send` of untrn. -/
structure BankSend where
  toAddress : Addr
  amount : Nat
  deriving Repr, DecidableEq

/-- `DEPOSITED_SYMBOL`. -/
def depositedSymbol : String := "untrn"

/-- `VESTING_CLIFF`: there is no cliff. -/
def vestingCliff : Nat := 0

/-! ### Handlers -/

/-- `instantiate`: an empty token that the dao mints. -/
def instantiate (daoAddress : Addr) : Storage where
  config := ⟨daoAddress, none, none, none⟩
  token := ⟨∅, 0, daoAddress⟩
  allocations := ∅

/-- The vested amount that `compute_withdrawable_amount` starts from. -/
def computeVestedAmount (allocatedAmount : Nat) (schedule : Schedule) (currentTime : Nat) :
    Except StdError Nat := do
  let cliffEnd ← Uint.add 64 schedule.startTime schedule.cliff
  if currentTime < cliffEnd then .ok 0
  else do
    let vestingEnd ← Uint.add 64 schedule.startTime schedule.duration
    if currentTime < vestingEnd then do
      let passed ← Uint.sub currentTime schedule.startTime
      Uint.multiplyRatio 128 allocatedAmount passed schedule.duration
    else .ok allocatedAmount

/-- `compute_withdrawable_amount`. -/
def computeWithdrawableAmount (allocatedAmount withdrawnAmount : Nat) (schedule : Schedule)
    (currentTime : Nat) : Except StdError Nat := do
  let vestedAmount ← computeVestedAmount allocatedAmount schedule currentTime
  Uint.checkedSub vestedAmount withdrawnAmount

/-- `execute_update_config`. -/
def executeUpdateConfig (s : Storage) (info : MessageInfo) (msg : UpdateConfigMsg) :
    Except ContractError Storage := do
  rejectIf (info.sender ≠ s.config.daoAddress) .unauthorized
  .ok { s with config :=
    { s.config with
      airdropAddress := msg.airdropAddress <|> s.config.airdropAddress
      lockdropAddress := msg.lockdropAddress <|> s.config.lockdropAddress
      whenWithdrawable := msg.whenWithdrawable <|> s.config.whenWithdrawable } }

/-- The check of the handlers that only the airdrop contract may call. -/
def onlyAirdrop (s : Storage) (info : MessageInfo) : Except ContractError Unit := do
  let airdropAddress ← okOr s.config.airdropAddress .airdropNotConfigured
  rejectIf (info.sender ≠ airdropAddress) .unauthorized

/-- `execute_add_vesting`. -/
def executeAddVesting (s : Storage) (info : MessageInfo) (address : Addr)
    (amount startTime duration : Nat) : Except ContractError Storage := do
  onlyAirdrop s info
  rejectIf (s.token.balanceOf address < amount) .noFundsSupplied
  rejectIf (s.allocations.has address = true) (.alreadyVested address)
  .ok { s with allocations :=
    s.allocations.save address ⟨amount, 0, ⟨startTime, vestingCliff, duration⟩⟩ }

/-- `try_find_untrns`: only the first coin is looked at. -/
def tryFindUntrns (funds : List Coin) : Except ContractError Nat := do
  let token ← okOr funds.head? .noFundsSupplied
  rejectIf (token.denom ≠ depositedSymbol) .incorrectFundsSupplied
  .ok token.amount

section Token

variable (cw20 : Cw20Base)

/-- `burn_and_send`: burn cNTRN of the sender and send him as much untrn. -/
def burnAndSend (s : Storage) (env : Env) (info : MessageInfo) (amount : Nat) :
    Except ContractError (Storage × List BankSend) := do
  let token ← (cw20.executeBurn s.token env info amount).mapError .cw20Error
  .ok ({ s with token := token }, [⟨info.sender, amount⟩])

/-- `execute_transfer`. -/
def executeTransfer (s : Storage) (env : Env) (info : MessageInfo) (recipient : Addr)
    (amount : Nat) : Except ContractError Storage := do
  onlyAirdrop s info
  let token ← (cw20.executeTransfer s.token env info recipient amount).mapError .cw20Error
  .ok { s with token := token }

/-- `execute_withdraw`. -/
def executeWithdraw (s : Storage) (env : Env) (info : MessageInfo) :
    Except ContractError (Storage × List BankSend) := do
  let whenWithdrawable ← okOr s.config.whenWithdrawable .whenWithdrawableIsNotConfigured
  rejectIf (env.time < whenWithdrawable) .tooEarlyToClaim
  let allocation ← (s.allocations.load info.sender).mapError .std
  let maxWithdrawableAmount ←
    (computeWithdrawableAmount allocation.allocatedAmount allocation.withdrawnAmount
      allocation.schedule env.time).mapError .std
  rejectIf (maxWithdrawableAmount = 0) .noFundsToClaim
  let actualBalance ← (s.token.balances.load info.sender).mapError .std
  let toWithdraw := min maxWithdrawableAmount actualBalance
  rejectIf (toWithdraw = 0) .noFundsToClaim
  let withdrawnAmount ← (Uint.add 128 allocation.withdrawnAmount toWithdraw).mapError .std
  let s := { s with allocations :=
    s.allocations.save info.sender { allocation with withdrawnAmount := withdrawnAmount } }
  burnAndSend cw20 s env info toWithdraw

/-- `execute_burn`. -/
def executeBurn (s : Storage) (env : Env) (info : MessageInfo) (amount : Nat) :
    Except ContractError (Storage × List BankSend) := do
  onlyAirdrop s info
  burnAndSend cw20 s env info amount

/-- `execute_burn_from`: the burn is done in the name of `owner`. -/
def executeBurnFrom (s : Storage) (env : Env) (info : MessageInfo) (owner : Addr)
    (amount : Nat) : Except ContractError (Storage × List BankSend) := do
  let lockdropAddress ← okOr s.config.lockdropAddress .lockdropNotConfigured
  rejectIf (info.sender ≠ lockdropAddress) .unauthorized
  burnAndSend cw20 s env { info with sender := owner } amount

/-- `execute_mint`: only to the airdrop contract. -/
def executeMint (s : Storage) (env : Env) (info : MessageInfo) :
    Except ContractError Storage := do
  let untrnAmount ← tryFindUntrns info.funds
  let recipient ← okOr s.config.airdropAddress .airdropNotConfigured
  let token ← (cw20.executeMint s.token env info recipient untrnAmount).mapError .cw20Error
  .ok { s with token := token }

/-- `execute`. -/
def execute (s : Storage) (env : Env) (info : MessageInfo) (msg : ExecuteMsg) :
    Except ContractError (Storage × List BankSend) :=
  match msg with
  | .updateConfig config => do
      let s ← executeUpdateConfig s info config
      .ok (s, [])
  | .addVesting address amount startTime duration => do
      let s ← executeAddVesting s info address amount startTime duration
      .ok (s, [])
  | .transfer recipient amount => do
      let s ← executeTransfer cw20 s env info recipient amount
      .ok (s, [])
  | .withdraw => executeWithdraw cw20 s env info
  | .burn amount => executeBurn cw20 s env info amount
  | .burnFrom owner amount => executeBurnFrom cw20 s env info owner amount
  | .mint => do
      let s ← executeMint cw20 s env info
      .ok (s, [])

end Token

/-! ### Queries -/

/-- `query_withdrawable_amount`. -/
def queryWithdrawableAmount (s : Storage) (env : Env) (address : Addr) :
    Except StdError Nat := do
  let allocation ← s.allocations.load address
  let maxWithdrawableAmount ←
    computeWithdrawableAmount allocation.allocatedAmount allocation.withdrawnAmount
      allocation.schedule env.time
  let actualBalance ← okOr (s.token.balances.mayLoad address) (.genericErr "No balance")
  .ok (min maxWithdrawableAmount actualBalance)

/-- `query_vested_amount`. -/
def queryVestedAmount (s : Storage) (env : Env) (address : Addr) : Except StdError Nat := do
  let allocation ← s.allocations.load address
  let maxWithdrawableAmount ←
    computeWithdrawableAmount allocation.allocatedAmount allocation.withdrawnAmount
      allocation.schedule env.time
  let actualBalance ← s.token.balances.load address
  Uint.sub actualBalance (min maxWithdrawableAmount actualBalance)

/-! ### The schedule -/

/-- The part of `allocatedAmount` that the schedule has vested at `time`. -/
def Schedule.vestedAt (schedule : Schedule) (allocatedAmount time : Nat) : Nat :=
  if time < schedule.startTime + schedule.cliff then 0
  else if time < schedule.startTime + schedule.duration then
    allocatedAmount * (time - schedule.startTime) / schedule.duration
  else allocatedAmount

theorem vestedAt_le (schedule : Schedule) (allocatedAmount time : Nat) :
    schedule.vestedAt allocatedAmount time ≤ allocatedAmount := by
  unfold Schedule.vestedAt
  split_ifs with hcliff hend
  · exact Nat.zero_le _
  · refine Nat.div_le_of_le_mul ?_
    rw [Nat.mul_comm]
    exact Nat.mul_le_mul_right _ (by omega)
  · exact le_refl _

/-- Vesting never goes back. -/
theorem vestedAt_mono (schedule : Schedule) (allocatedAmount : Nat) {t t' : Nat}
    (h : t ≤ t') :
    schedule.vestedAt allocatedAmount t ≤ schedule.vestedAt allocatedAmount t' := by
  by_cases hlater : t' < schedule.startTime + schedule.cliff ∨
      schedule.startTime + schedule.duration ≤ t'
  · rcases hlater with hcliff | hend
    · have hboth : t < schedule.startTime + schedule.cliff := by omega
      simp [Schedule.vestedAt, hcliff, hboth]
    · by_cases hcliff : t' < schedule.startTime + schedule.cliff
      · have hboth : t < schedule.startTime + schedule.cliff := by omega
        simp [Schedule.vestedAt, hcliff, hboth]
      · have hnot : ¬ t' < schedule.startTime + schedule.duration := by omega
        have hall : schedule.vestedAt allocatedAmount t' = allocatedAmount := by
          simp [Schedule.vestedAt, hcliff, hnot]
        rw [hall]
        exact vestedAt_le schedule allocatedAmount t
  · push Not at hlater
    obtain ⟨hcliff, hend⟩ := hlater
    unfold Schedule.vestedAt
    rw [if_neg (by omega : ¬ t' < schedule.startTime + schedule.cliff), if_pos hend]
    split_ifs with h1 h2
    · exact Nat.zero_le _
    · exact Nat.div_le_div_right (Nat.mul_le_mul_left _ (by omega))
    · omega

theorem computeVestedAmount_ok {allocatedAmount time amount : Nat} {schedule : Schedule}
    (h : computeVestedAmount allocatedAmount schedule time = .ok amount) :
    amount = schedule.vestedAt allocatedAmount time := by
  unfold computeVestedAmount at h
  simp only [bind_eq_ok, Uint.add_eq_ok] at h
  obtain ⟨_, ⟨-, rfl⟩, h⟩ := h
  unfold Schedule.vestedAt
  split at h
  · rename_i hcliff
    rw [if_pos hcliff, Except.ok.inj h]
  · rename_i hcliff
    simp only [bind_eq_ok, Uint.add_eq_ok] at h
    obtain ⟨_, ⟨-, rfl⟩, h⟩ := h
    rw [if_neg hcliff]
    split at h
    · rename_i hend
      simp only [bind_eq_ok, Uint.sub_eq_ok] at h
      obtain ⟨_, ⟨-, rfl⟩, hratio⟩ := h
      rw [if_pos hend]
      exact (Uint.multiplyRatio_eq_ok.mp hratio).2.2
    · rename_i hend
      rw [if_neg hend, Except.ok.inj h]

/-- The withdrawable amount is what is vested and not yet withdrawn. -/
theorem computeWithdrawableAmount_ok {allocatedAmount withdrawnAmount time amount : Nat}
    {schedule : Schedule}
    (h : computeWithdrawableAmount allocatedAmount withdrawnAmount schedule time = .ok amount) :
    withdrawnAmount + amount = schedule.vestedAt allocatedAmount time := by
  unfold computeWithdrawableAmount at h
  simp only [bind_eq_ok, Uint.checkedSub_eq_ok] at h
  obtain ⟨vested, hvested, hle, rfl⟩ := h
  rw [← computeVestedAmount_ok hvested]
  omega

end NeutronTge.Credits
