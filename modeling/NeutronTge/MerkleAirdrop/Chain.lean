import NeutronTge.Credits.Backing
import NeutronTge.MerkleAirdrop.Contract

/-!
# NeutronTge.MerkleAirdrop.Chain

The airdrop contract together with the credits contract it gives cNTRN of. Its messages are
executed one after the other, in its name; when one fails the whole transaction fails. Anybody
else may do anything to the credits contract in between. What the credits contract pays the
airdrop contract is added to the untrn it holds.
-/

namespace NeutronTge.MerkleAirdrop

open CosmWasm

/-- The airdrop with the credits contract, where the time is kept. -/
structure World where
  storage : Storage
  contract : Addr
  /-- The untrn of the airdrop contract. -/
  untrn : Nat
  credits : Credits.World
  /-- The transfers of claims that went out. -/
  paid : List (Addr × Nat)

/-- The block the airdrop contract sees. -/
def World.env (w : World) : Env := ⟨w.credits.env.time, w.credits.env.height, w.contract⟩

/-- The answer to a query for a balance of cNTRN. -/
def World.balance (w : World) (contractAddr addr : Addr) : Except StdError Nat :=
  if contractAddr = w.credits.env.contract then .ok (w.credits.storage.token.balanceOf addr)
  else .error .notFound

section Exec

variable (cw20 : Credits.Cw20Base) (c : Codec)

/-- The credits contract did something, and perhaps it paid the airdrop contract. -/
def World.settle (w : World) (credits : Credits.World) : World :=
  { w with
    credits := credits
    untrn := w.untrn + (credits.paid w.contract - w.credits.paid w.contract) }

/-- A message to the credits contract. -/
def World.call (w : World) (contractAddr : Addr) (msg : Credits.ExecuteMsg) :
    Except Credits.ContractError World := do
  rejectIf (contractAddr ≠ w.credits.env.contract) (.std .notFound)
  let credits ← w.credits.execute cw20 ⟨w.contract, []⟩ msg
  .ok (w.settle credits)

/-- Execute one message of the airdrop contract. The bank rejects an empty transfer. -/
def World.dispatch (w : World) : CosmosMsg → Except Credits.ContractError World
  | .transfer contractAddr recipient amount => do
      let w ← w.call cw20 contractAddr (.transfer recipient amount)
      .ok { w with paid := w.paid ++ [(recipient, amount)] }
  | .addVesting contractAddr address amount startTime duration =>
      w.call cw20 contractAddr (.addVesting address amount startTime duration)
  | .burn contractAddr amount => w.call cw20 contractAddr (.burn amount)
  | .bankSend toAddress coin => do
      rejectIf (coin.amount = 0) (.std .aborted)
      let rest ← (Uint.checkedSub w.untrn coin.amount).mapError .std
      .ok { w with
        untrn := if toAddress = w.contract then w.untrn else rest
        credits := if toAddress = w.credits.env.contract then
          { w.credits with held := w.credits.held + coin.amount } else w.credits }

/-- Which of the two contracts failed. -/
inductive Failure
  | airdrop (e : ContractError)
  | credits (e : Credits.ContractError)
  deriving Repr, DecidableEq

/-- A transaction that somebody sends to the airdrop contract. -/
def World.execute (w : World) (info : MessageInfo) (msg : ExecuteMsg) :
    Except Failure World := do
  rejectIf (info.sender = w.contract) (.airdrop (.std .aborted))
  let (s, msgs) ←
    (MerkleAirdrop.execute c w.balance w.storage w.env info msg).mapError .airdrop
  (msgs.foldlM (World.dispatch cw20)
    { w with storage := s, untrn := w.untrn + Credits.untrnIn info.funds }).mapError .credits

/-- What happens in a run. -/
inductive Action
  | execute (info : MessageInfo) (msg : ExecuteMsg)
  /-- Anything else that happens to the credits contract; time passes there. -/
  | credits (action : Credits.Action)
  /-- Somebody sends untrn to the airdrop contract. -/
  | donate (amount : Nat)

/-- The airdrop contract acts through its own code only. -/
def Action.foreign (contract : Addr) : Credits.Action → Prop
  | .execute info _ => info.sender ≠ contract
  | _ => True

instance (contract : Addr) (action : Credits.Action) :
    Decidable (Action.foreign contract action) := by
  cases action <;> unfold Action.foreign <;> infer_instance

/-- One action of a run. -/
def World.exec (w : World) : Action → Except Failure World
  | .execute info msg => w.execute cw20 c info msg
  | .credits action => do
      rejectIf (¬ Action.foreign w.contract action) (.credits (.std .aborted))
      let credits ← (w.credits.exec cw20 action).mapError .credits
      .ok (w.settle credits)
  | .donate amount => .ok { w with untrn := w.untrn + amount }

end Exec

/-- Both contracts right after `instantiate`: the airdrop contract knows the credits contract. -/
structure Started (c : Codec) (w : World) : Prop where
  storage : ∃ info msg, instantiate c info msg = .ok w.storage ∧ info.sender ≠ w.contract
  wired : w.storage.config.creditsAddress = w.credits.env.contract
  other : w.contract ≠ w.credits.env.contract
  credits : Credits.Started w.credits
  paid : w.paid = []

/-! ### Taking a transaction apart -/

section Inversion

variable {cw20 : Credits.Cw20Base} {c : Codec} {w w' : World}

theorem call_ok {contractAddr : Addr} {msg : Credits.ExecuteMsg}
    (h : w.call cw20 contractAddr msg = .ok w') :
    contractAddr = w.credits.env.contract ∧ ∃ credits,
      w.credits.exec cw20 (.execute ⟨w.contract, []⟩ msg) = .ok credits ∧
        w' = w.settle credits := by
  unfold World.call at h
  simp only [bind_eq_ok, rejectIf_eq_ok, exists_const, not_not, Except.ok.injEq] at h
  obtain ⟨haddr, credits, hcredits, rfl⟩ := h
  exact ⟨haddr, credits, hcredits, rfl⟩

/-- A message of the contract leaves its storage alone. -/
theorem dispatch_storage {msg : CosmosMsg} (h : w.dispatch cw20 msg = .ok w') :
    w'.storage = w.storage := by
  cases msg with
  | transfer contractAddr recipient amount =>
      simp only [World.dispatch, bind_eq_ok, Except.ok.injEq] at h
      obtain ⟨v, hcall, rfl⟩ := h
      obtain ⟨-, credits, -, rfl⟩ := call_ok hcall
      rfl
  | addVesting contractAddr address amount startTime duration =>
      obtain ⟨-, credits, -, rfl⟩ := call_ok h
      rfl
  | burn contractAddr amount =>
      obtain ⟨-, credits, -, rfl⟩ := call_ok h
      rfl
  | bankSend toAddress coin =>
      simp only [World.dispatch, bind_eq_ok, rejectIf_eq_ok, exists_const, mapError_eq_ok,
        Except.ok.injEq] at h
      obtain ⟨-, rest, -, rfl⟩ := h
      rfl

theorem dispatches_storage {msgs : List CosmosMsg}
    (h : msgs.foldlM (World.dispatch cw20) w = .ok w') : w'.storage = w.storage :=
  foldlM_relation (R := fun v v' : World => v'.storage = v.storage) (fun _ => rfl)
    (fun _ _ _ hv hv' => hv'.trans hv) (fun _ _ _ _ => dispatch_storage) h

/-- A transaction is a handler followed by its messages. -/
theorem execute_ok {info : MessageInfo} {msg : ExecuteMsg}
    (h : w.execute cw20 c info msg = .ok w') :
    info.sender ≠ w.contract ∧ ∃ s msgs, Effect c w.balance w.storage s w.env info msgs msg ∧
      msgs.foldlM (World.dispatch cw20)
        { w with storage := s, untrn := w.untrn + Credits.untrnIn info.funds } = .ok w' := by
  unfold World.execute at h
  simp only [bind_eq_ok, rejectIf_eq_ok, exists_const, mapError_eq_ok] at h
  obtain ⟨hsender, ⟨s, msgs⟩, hexec, hrun⟩ := h
  exact ⟨hsender, s, msgs, execute_effect hexec, hrun⟩

/-- A claim: its transfer and its vesting are executed. -/
structure Pays (cw20 : Credits.Cw20Base) (w w' : World) (claimant : Addr) (amount : Nat) :
    Prop where
  transferred : ∃ credits,
    w.credits.exec cw20 (.execute ⟨w.contract, []⟩ (.transfer claimant amount)) = .ok credits ∧
    credits.exec cw20 (.execute ⟨w.contract, []⟩ (.addVesting claimant amount
      w.storage.vestingStart w.storage.vestingDuration)) = .ok w'.credits
  contract : w'.contract = w.contract
  paid : w'.paid = w.paid ++ [(claimant, amount)]

theorem claim_pays {amount : Nat} {proof : List String} {msgs : List CosmosMsg} {s : Storage}
    {claimant : Addr} {funds : Nat}
    (hclaims : Claims c w.storage s w.env claimant amount proof msgs)
    (h : msgs.foldlM (World.dispatch cw20)
      { w with storage := s, untrn := w.untrn + funds } = .ok w') :
    w'.storage = s ∧ Pays cw20 w w' claimant amount := by
  rw [hclaims.messages] at h
  obtain ⟨v, htransfer, h⟩ := foldlM_cons_ok.mp h
  have hvesting := foldlM_singleton_ok.mp h
  simp only [World.dispatch, bind_eq_ok, Except.ok.injEq] at htransfer
  obtain ⟨v', htransfer, rfl⟩ := htransfer
  obtain ⟨-, credits, hcredits, rfl⟩ := call_ok htransfer
  obtain ⟨-, credits', hcredits', rfl⟩ := call_ok hvesting
  exact ⟨rfl, ⟨credits, hcredits, hcredits'⟩, rfl, rfl⟩

end Inversion

end NeutronTge.MerkleAirdrop
