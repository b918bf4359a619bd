import NeutronTge.CosmWasm.Run
import NeutronTge.Vesting.History

/-!
# NeutronTge.Vesting.Chain

A contract built from `vesting-base` on its chain, with the tokens it holds. Tokens are
honest: a cw20 contract moves the tokens before it delivers a `Send`, it reports the real
sender and amount, and it does not call the contract otherwise; a transfer fails when the
balance is too small. A token can reject transfers for reasons of its own (`accepts`).

Between two transactions the totals are the sums over the accounts, the contract holds what
it owes, no account was paid more than has vested, and the answers about past blocks agree.
-/

namespace NeutronTge.Vesting

open CosmWasm Astroport

/-! ### The contract and its tokens -/

/-- Which extensions a vesting contract is built with. -/
structure VestingBaseBuilder where
  vestingManagers : List Addr
  historical : Bool
  managed : Bool
  withManagers : Bool

/-- `build`. -/
def VestingBaseBuilder.build (b : VestingBaseBuilder) (owner tokenInfoManager : Addr) :
    Storage where
  config :=
    { owner := owner
      vestingToken := none
      tokenInfoManager := tokenInfoManager
      extensions :=
        { historical := b.historical, managed := b.managed, withManagers := b.withManagers } }
  ownershipProposal := none
  vestingManagers :=
    if b.withManagers then b.vestingManagers.foldl (fun m a => m.save a ()) ∅ else ∅
  vestingState := SnapshotMap.empty
  vestingInfo := SnapshotMap.empty

/-- The contract, the tokens it holds, and what claims have paid out for each account since
the account was created. -/
structure World where
  storage : Storage
  env : Env
  held : AssetInfo → Nat
  claimed : Addr → Nat

/-- Tokens come in. -/
def World.credit (w : World) (asset : AssetInfo) (amount : Nat) : World :=
  { w with held := fun a => if a = asset then w.held a + amount else w.held a }

/-- The coins of a call come in. -/
def World.creditCoins (w : World) (funds : List Coin) : World :=
  funds.foldl (fun w coin => w.credit (.nativeToken coin.denom) coin.amount) w

section Exec

variable (accepts : TransferMsg → Bool)

/-- Carry out a transfer the contract asked for. -/
def World.payOut (w : World) (m : TransferMsg) : Except ContractError World := do
  rejectIf (accepts m = false ∨ w.held m.info < m.quantity) (.std (.overflow .sub))
  if m.recipient = w.env.contract then .ok w
  else
    .ok { w with held := fun a => if a = m.info then w.held a - m.quantity else w.held a }

/-- The tokens carry out transfers of positive amounts; those of zero they may refuse. -/
def AcceptsPositive : Prop := ∀ m : TransferMsg, 0 < m.quantity → accepts m = true

/-- What claims have paid for each account after a message. -/
def World.claimedAfter (w : World) (s : Storage) (info : MessageInfo) (msg : ExecuteMsg)
    (msgs : List TransferMsg) (a : Addr) : Nat :=
  match s.vestingInfo.mayLoad a, msg with
  | none, _ => 0
  | some _, .claim _ _ => w.claimed a + if a = info.sender then quantities msgs else 0
  | some _, _ => w.claimed a

/-- Run the contract's handler and the transfers it asks for. -/
def World.call (w : World) (info : MessageInfo) (msg : ExecuteMsg) :
    Except ContractError World := do
  let (s, msgs) ← Vesting.execute w.storage w.env info msg
  msgs.foldlM (World.payOut accepts)
    { w with storage := s, claimed := w.claimedAfter s info msg msgs }

/-- What happens in a run. -/
inductive Action
  /-- Time passes. -/
  | advance (seconds blocks : Nat)
  /-- Somebody sends tokens to the contract. -/
  | transfer (asset : AssetInfo) (amount : Nat)
  /-- A `Send` of the cw20 token `token` by `sender`, with its payload. -/
  | send (token sender : Addr) (amount : Nat) (msg : Option Cw20HookMsg)
  | execute (info : MessageInfo) (msg : ExecuteMsg)

/-- One action of a run. -/
def World.exec (w : World) : Action → Except ContractError World
  | .advance seconds blocks =>
      .ok { w with env :=
        { w.env with time := w.env.time + seconds, height := w.env.height + blocks } }
  | .transfer asset amount => .ok (w.credit asset amount)
  | .send token sender amount msg =>
      (w.credit (.token token) amount).call accepts ⟨token, []⟩ (.receive ⟨sender, amount, msg⟩)
  | .execute info msg => do
      -- the vesting token only calls to deliver a `Send`
      rejectIf (w.storage.config.vestingToken = some (.token info.sender)) .unauthorized
      (w.creditCoins info.funds).call accepts info msg

end Exec

/-- A contract that was just built, on a chain of any age. -/
def World.start (b : VestingBaseBuilder) (owner tokenInfoManager : Addr) (env : Env)
    (held : AssetInfo → Nat) : World :=
  ⟨b.build owner tokenInfoManager, env, held, fun _ => 0⟩

/-! ### Tokens that move -/

@[simp] theorem credit_storage (w : World) (asset : AssetInfo) (amount : Nat) :
    (w.credit asset amount).storage = w.storage := rfl

@[simp] theorem credit_env (w : World) (asset : AssetInfo) (amount : Nat) :
    (w.credit asset amount).env = w.env := rfl

@[simp] theorem credit_claimed (w : World) (asset : AssetInfo) (amount : Nat) :
    (w.credit asset amount).claimed = w.claimed := rfl

@[simp] theorem credit_held (w : World) (asset : AssetInfo) (amount : Nat) :
    (w.credit asset amount).held asset = w.held asset + amount := by
  simp [World.credit]

theorem held_le_credit (w : World) (asset a : AssetInfo) (amount : Nat) :
    w.held a ≤ (w.credit asset amount).held a := by
  unfold World.credit
  dsimp only
  split <;> omega

/-- Coins that come in lower no balance and touch nothing else. -/
theorem creditCoins_frame (funds : List Coin) : ∀ w : World,
    (w.creditCoins funds).storage = w.storage ∧ (w.creditCoins funds).env = w.env ∧
      (w.creditCoins funds).claimed = w.claimed ∧ ∀ a, w.held a ≤ (w.creditCoins funds).held a := by
  induction funds with
  | nil =>
      intro w
      exact ⟨rfl, rfl, rfl, fun _ => le_refl _⟩
  | cons coin rest ih =>
      intro w
      obtain ⟨hstorage, henv, hclaimed, hheld⟩ :=
        ih (w.credit (.nativeToken coin.denom) coin.amount)
      exact ⟨hstorage, henv, hclaimed, fun a => (held_le_credit ..).trans (hheld a)⟩

/-- A transfer takes what it moves from one balance at most. -/
theorem payOut_ok {accepts : TransferMsg → Bool} {w w' : World} {m : TransferMsg}
    (h : w.payOut accepts m = .ok w') :
    w'.storage = w.storage ∧ w'.env = w.env ∧ w'.claimed = w.claimed ∧
      w.held m.info ≤ w'.held m.info + m.quantity := by
  unfold World.payOut at h
  simp only [bind_eq_ok, exists_const, rejectIf_eq_ok, not_or, not_lt] at h
  obtain ⟨⟨-, hle⟩, h⟩ := h
  split at h
  · obtain rfl := Except.ok.inj h
    exact ⟨rfl, rfl, rfl, Nat.le_add_right _ _⟩
  · obtain rfl := Except.ok.inj h
    refine ⟨rfl, rfl, rfl, ?_⟩
    simp only [if_true]
    omega

/-- Transfers of one token take their sum from its balance at most. -/
theorem payOuts_ok {accepts : TransferMsg → Bool} {token : AssetInfo} :
    ∀ {msgs : List TransferMsg} {w w' : World}, (∀ m ∈ msgs, m.info = token) →
      msgs.foldlM (World.payOut accepts) w = .ok w' →
        w'.storage = w.storage ∧ w'.env = w.env ∧ w'.claimed = w.claimed ∧
          w.held token ≤ w'.held token + quantities msgs := by
  intro msgs
  induction msgs with
  | nil =>
      intro w w' _ h
      obtain rfl := Except.ok.inj h
      exact ⟨rfl, rfl, rfl, le_refl _⟩
  | cons m ms ih =>
      intro w w' htoken h
      obtain ⟨t, hm, hrest⟩ := foldlM_cons_ok.mp h
      obtain ⟨hstorage, henv, hclaimed, hheld⟩ := payOut_ok hm
      obtain ⟨hstorage', henv', hclaimed', hheld'⟩ :=
        ih (fun a ha => htoken a (List.mem_cons_of_mem _ ha)) hrest
      rw [htoken m List.mem_cons_self] at hheld
      refine ⟨hstorage'.trans hstorage, henv'.trans henv, hclaimed'.trans hclaimed, ?_⟩
      have hsum : quantities (m :: ms) = m.quantity + quantities ms := by simp [quantities]
      omega

end NeutronTge.Vesting
