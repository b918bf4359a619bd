import NeutronTge.CosmWasm.Message

/-!
# NeutronTge.Astroport.Asset

The parts of the shared `astroport` package that the contracts call: assets and the
transfer an asset turns into, and the two-step hand-over of a contract's ownership.
-/

namespace NeutronTge.Astroport

open CosmWasm

/-- A cw20 token, by its contract, or a native token. -/
inductive AssetInfo
  | token (contractAddr : Addr)
  | nativeToken (denom : String)
  deriving Repr, DecidableEq

/-- An amount of some token. -/
structure Asset where
  info : AssetInfo
  amount : Nat
  deriving Repr, DecidableEq

/-- A transfer a contract asks for: `Cw20ExecuteMsg::Transfer` or `BankMsg::Send`. -/
inductive TransferMsg
  | cw20 (contractAddr recipient : Addr) (amount : Nat)
  | bank (toAddress : Addr) (amount : Coin)
  deriving Repr, DecidableEq

/-- `into_msg`. The tax that is deducted from a native token is zero. -/
def Asset.intoMsg (asset : Asset) (recipient : Addr) : TransferMsg :=
  match asset.info with
  | .token contractAddr => .cw20 contractAddr recipient asset.amount
  | .nativeToken denom => .bank recipient ⟨denom, asset.amount⟩

/-- What a transfer moves. -/
def TransferMsg.info : TransferMsg → AssetInfo
  | .cw20 contractAddr _ _ => .token contractAddr
  | .bank _ coin => .nativeToken coin.denom

/-- How much a transfer moves. -/
def TransferMsg.quantity : TransferMsg → Nat
  | .cw20 _ _ amount => amount
  | .bank _ coin => coin.amount

/-- Who gets it. -/
def TransferMsg.recipient : TransferMsg → Addr
  | .cw20 _ recipient _ => recipient
  | .bank toAddress _ => toAddress

@[simp] theorem intoMsg_info (asset : Asset) (recipient : Addr) :
    (asset.intoMsg recipient).info = asset.info := by
  obtain ⟨info, amount⟩ := asset
  cases info <;> rfl

@[simp] theorem intoMsg_quantity (asset : Asset) (recipient : Addr) :
    (asset.intoMsg recipient).quantity = asset.amount := by
  obtain ⟨info, amount⟩ := asset
  cases info <;> rfl

@[simp] theorem intoMsg_recipient (asset : Asset) (recipient : Addr) :
    (asset.intoMsg recipient).recipient = recipient := by
  obtain ⟨info, amount⟩ := asset
  cases info <;> rfl

/-- `addr_validate_to_lower`. -/
def addrValidateToLower (addr : Addr) : Except StdError Addr := do
  rejectIf (addr.toLower ≠ addr)
    (.genericErr ("Address " ++ addr ++ " should be lowercase"))
  .ok addr

/-- `AssetInfo::check`. -/
def AssetInfo.check (info : AssetInfo) : Except StdError Unit :=
  match info with
  | .token contractAddr => do
      let _ ← addrValidateToLower contractAddr
      .ok ()
  | .nativeToken denom =>
      rejectIf (¬ (denom.startsWith "ibc/" = true) ∧ denom ≠ denom.toLower)
        (.genericErr ("Non-IBC token denom " ++ denom ++ " should be lowercase"))

/-! ### Ownership -/

/-- `MAX_PROPOSAL_TTL`. -/
def maxProposalTtl : Nat := 1209600

/-- A standing offer of the ownership. -/
structure OwnershipProposal where
  owner : Addr
  ttl : Nat
  deriving Repr, DecidableEq

/-- `propose_new_owner`: the proposal that is stored. -/
def proposeNewOwner (info : MessageInfo) (env : Env) (newOwner : Addr) (expiresIn : Nat)
    (owner : Addr) : Except StdError OwnershipProposal := do
  rejectIf (info.sender ≠ owner) (.genericErr "Unauthorized")
  let newOwner ← addrValidateToLower newOwner
  rejectIf (newOwner = owner) (.genericErr "New owner cannot be same")
  rejectIf (maxProposalTtl < expiresIn)
    (.genericErr "Parameter expires_in cannot be higher than 1209600")
  let ttl ← Uint.add 64 env.time expiresIn
  .ok ⟨newOwner, ttl⟩

/-- `drop_ownership_proposal`: who may remove the proposal. -/
def dropOwnershipProposal (info : MessageInfo) (owner : Addr) : Except StdError Unit :=
  rejectIf (info.sender ≠ owner) (.genericErr "Unauthorized")

/-- `claim_ownership`: the new owner. -/
def claimOwnership (info : MessageInfo) (env : Env) (proposal : Option OwnershipProposal) :
    Except StdError Addr := do
  let p ← okOr proposal (.genericErr "Ownership proposal not found")
  rejectIf (info.sender ≠ p.owner) (.genericErr "Unauthorized")
  rejectIf (p.ttl < env.time) (.genericErr "Ownership proposal expired")
  .ok p.owner

end NeutronTge.Astroport
