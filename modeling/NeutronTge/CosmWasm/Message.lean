import NeutronTge.CosmWasm.Uint

/-!
# NeutronTge.CosmWasm.Message

What a handler is called with, and the transfers it can ask the chain for. The
strings of a message that name an account are taken as already validated: a message
with a string that `addr_validate` rejects fails before it writes anything.
-/

namespace NeutronTge.CosmWasm

/-- An amount of a native token. -/
structure Coin where
  denom : String
  amount : Nat
  deriving Repr, DecidableEq

/-- The block a transaction is executed in, in seconds, and the contract's address. -/
structure Env where
  time : Nat
  height : Nat
  contract : Addr
  deriving Repr, DecidableEq

/-- Who calls, and the coins that came with the call. -/
structure MessageInfo where
  sender : Addr
  funds : List Coin
  deriving Repr, DecidableEq

/-- The errors of the payment checks. -/
inductive PaymentError
  | missingDenom (denom : String)
  | multipleDenoms
  | noFunds
  deriving Repr, DecidableEq

/-- `one_coin`: exactly one coin was sent, and some of it. -/
def oneCoin (info : MessageInfo) : Except PaymentError Coin :=
  match info.funds with
  | [] => .error .noFunds
  | [coin] => if coin.amount = 0 then .error .noFunds else .ok coin
  | _ => .error .multipleDenoms

/-- `must_pay`: the amount of `denom` sent, which has to be the only coin. -/
def mustPay (info : MessageInfo) (denom : String) : Except PaymentError Nat := do
  let coin ← oneCoin info
  if coin.denom = denom then .ok coin.amount else .error (.missingDenom denom)

/-- A paid amount is positive. -/
theorem mustPay_pos {info : MessageInfo} {denom : String} {amount : Nat}
    (h : mustPay info denom = .ok amount) : info.funds = [⟨denom, amount⟩] ∧ 0 < amount := by
  unfold mustPay oneCoin at h
  split at h
  · cases h
  · rename_i coin hfunds
    split at h
    · cases h
    · rename_i hne
      change (if coin.denom = denom then Except.ok coin.amount
        else .error (PaymentError.missingDenom denom)) = .ok amount at h
      split at h
      · rename_i hdenom
        obtain rfl := Except.ok.inj h
        obtain rfl := hdenom
        exact ⟨hfunds, Nat.pos_of_ne_zero hne⟩
      · cases h
  · cases h

end NeutronTge.CosmWasm
