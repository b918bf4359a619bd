import NeutronTge.CosmWasm.Dispatch
import NeutronTge.CosmWasm.Run
import NeutronTge.LockdropPcl.Contract

/-!
# NeutronTge.LockdropPcl.Chain

The PCL lockdrop on its chain, like the XYK lockdrop: a transaction runs a handler and then
the messages it sent, depth first. The other contracts are a parameter (`Externals`) and do
not call back. The trace lists the messages that went out.
-/

namespace NeutronTge.LockdropPcl

open CosmWasm Astroport
open Lockdrop (untrnDenom)

/-- The contracts around the PCL lockdrop. -/
structure Externals (E : Type) where
  querier : E → Querier
  exec : E → CosmosMsg → Except StdError E

/-- The PCL lockdrop, the contracts around it and the time. -/
structure World (E : Type) where
  storage : Storage
  ext : E
  env : Env
  trace : List CosmosMsg

variable {E : Type}

/-- The world after a handler returned, before its messages are executed. -/
def World.respond (w : World E) (r : Response) : World E := { w with storage := r.storage }

/-- The callback that a message is, if it is one. -/
def CosmosMsg.asCallback : CosmosMsg → Option CallbackMsg
  | .callback msg => some msg
  | _ => none

section Exec

variable (x : Externals E)

/-- How the messages of the lockdrop are executed. -/
def Externals.calls : Calls (World E) CosmosMsg CallbackMsg Response E StdError where
  callback := CosmosMsg.asCallback
  handle w msg := handleCallback (x.querier w.ext) w.storage w.env msg
  respond := World.respond
  messages := Response.messages
  exec w msg := x.exec w.ext msg
  sent w ext msg := { w with ext := ext, trace := w.trace ++ [msg] }
  tooDeep := .aborted

/-- Execute one message. The number bounds the nesting of callbacks. -/
def dispatch : Nat → World E → CosmosMsg → Except StdError (World E) := x.calls.dispatch

/-- How deep callbacks nest: no callback sends another one. -/
def callDepth : Nat := 1

/-- A transaction that somebody sends to the PCL lockdrop. -/
def World.execute (w : World E) (info : MessageInfo) (msg : ExecuteMsg) :
    Except StdError (World E) := do
  rejectIf (info.sender = w.env.contract) .aborted
  let r ← LockdropPcl.execute (x.querier w.ext) w.storage w.env info msg
  r.messages.foldlM (dispatch x callDepth) (w.respond r)

/-- What happens in a run. -/
inductive Action (E : Type)
  /-- Time passes. -/
  | advance (seconds blocks : Nat)
  /-- The other contracts change by themselves. -/
  | drift (ext : E)
  | execute (info : MessageInfo) (msg : ExecuteMsg)

/-- One action of a run. -/
def World.exec (w : World E) : Action E → Except StdError (World E)
  | .advance seconds blocks =>
      .ok { w with env :=
        { w.env with time := w.env.time + seconds, height := w.env.height + blocks } }
  | .drift ext => .ok { w with ext := ext }
  | .execute info msg => w.execute x info msg

end Exec

/-! ### A small chain

The contracts around the PCL lockdrop as far as it notices them: its LP tokens by pair, its
deposits at one incentives contract, and the rewards that wait for it there. A pair mints an
LP token for every coin. -/

/-- The contracts around the PCL lockdrop of the small chain. -/
structure SampleExt where
  lp : Map Addr Nat
  deposits : Map Addr Nat
  held : Map AssetInfo Nat
  /-- The rewards that wait for the lockdrop, by LP token. -/
  pending : Map Addr (List Asset)
  /-- The rewards it got so far. -/
  received : Map (Addr × AssetInfo) Nat
  /-- The rewards that the incentives contract lists. -/
  listed : List RewardType

namespace SampleExt

/-- The LP tokens of a pair that the lockdrop holds. -/
def lpOf (e : SampleExt) (pair : Addr) : Nat := (e.lp.mayLoad pair).getD 0

/-- The LP tokens that the lockdrop has staked. -/
def deposit (e : SampleExt) (incentives lpToken : Addr) : Nat :=
  if incentives = "incentives" then (e.deposits.mayLoad lpToken).getD 0 else 0

/-- What the lockdrop holds of a reward asset. -/
def balanceOf (e : SampleExt) (asset : AssetInfo) : Nat := (e.held.mayLoad asset).getD 0

/-- The rewards that a claim for an LP token would send. -/
def pendingOf (e : SampleExt) (lpToken : Addr) : List Asset :=
  (e.pending.mayLoad lpToken).getD []

/-- What the lockdrop has received of an asset for an LP token. -/
def receivedOf (e : SampleExt) (lpToken : Addr) (asset : AssetInfo) : Nat :=
  (e.received.mayLoad (lpToken, asset)).getD 0

/-- What the small chain answers to the queries of the lockdrop. -/
def querier (e : SampleExt) : Querier where
  deposit incentives lpToken := .ok (e.deposit incentives lpToken)
  pendingRewards _ lpToken := .ok (e.pendingOf lpToken)
  rewardInfo _ _ := .ok e.listed
  rawIncentivesDeposit incentives lpToken := .ok (e.deposit incentives lpToken)
  tokenBalance lpToken := .ok (e.lpOf (lpToken ++ "_pair"))
  rawBalance lpToken := .ok (e.lpOf (lpToken ++ "_pair"))
  minter lpToken := .ok (lpToken ++ "_pair")
  queryPool asset := .ok (e.balanceOf asset)
  creditsBalance _ _ := .ok 0
  withdrawableAmount _ _ := .ok 0
  vestedAmount _ _ := .ok 0

/-- A reward arrives. -/
def receive (lpToken : Addr) (e : SampleExt) (asset : Asset) : SampleExt :=
  { e with
    held := e.held.save asset.info (e.balanceOf asset.info + asset.amount)
    received := e.received.save (lpToken, asset.info)
      (e.receivedOf lpToken asset.info + asset.amount) }

/-- The rewards of an LP token arrive. -/
def claim (e : SampleExt) (lpToken : Addr) : SampleExt :=
  (e.pendingOf lpToken).foldl (receive lpToken) { e with pending := e.pending.save lpToken [] }

/-- What the messages of the lockdrop do on the small chain. -/
def exec (e : SampleExt) : CosmosMsg → Except StdError SampleExt
  | .provideLiquidity pair assets _ =>
      .ok { e with lp := e.lp.save pair (e.lpOf pair + (assets.map Asset.amount).sum) }
  | .sendDeposit lpToken incentives amount => do
      rejectIf (incentives ≠ "incentives") .aborted
      let rest ← Uint.checkedSub (e.lpOf (lpToken ++ "_pair")) amount
      .ok { e with
        lp := e.lp.save (lpToken ++ "_pair") rest
        deposits := e.deposits.save lpToken (e.deposit incentives lpToken + amount) }
  | .incentivesWithdraw incentives lpToken amount => do
      rejectIf (incentives ≠ "incentives") .aborted
      let rest ← Uint.checkedSub (e.deposit incentives lpToken) amount
      .ok { e with
        lp := e.lp.save (lpToken ++ "_pair") (e.lpOf (lpToken ++ "_pair") + amount)
        deposits := e.deposits.save lpToken rest }
  | .lpTransfer lpToken _ amount => do
      let rest ← Uint.checkedSub (e.lpOf (lpToken ++ "_pair")) amount
      .ok { e with lp := e.lp.save (lpToken ++ "_pair") rest }
  | .claimRewards _ lpTokens => .ok (lpTokens.foldl claim e)
  | .transfer msg => do
      let rest ← Uint.checkedSub (e.balanceOf msg.info) msg.quantity
      .ok { e with held := e.held.save msg.info rest }
  | _ => .ok e

end SampleExt

/-- The small chain as the contracts around the lockdrop. -/
def sampleExternals : Externals SampleExt := ⟨SampleExt.querier, SampleExt.exec⟩

/-- The configuration of the small chain. -/
def sampleInstantiateMsg : InstantiateMsg where
  owner := some "owner"
  xykLockdropContract := "lockdrop"
  creditsContract := "credits"
  auctionContract := "auction"
  incentives := "incentives"
  lockupRewardsInfo := [⟨1, ⟨0⟩⟩, ⟨2, ⟨FixedPoint.fractional⟩⟩]
  usdcToken := "usdc_pcl"
  atomToken := "atom_pcl"
  lockdropIncentives := 0
  usdcIncentivesShare := 0
  usdcWeightedAmount := 0
  atomIncentivesShare := 0
  atomWeightedAmount := 0

/-- A PCL lockdrop right after `instantiate`. -/
def sampleStart : World SampleExt where
  storage := sampleInstantiateMsg.storage ⟨0, 1, "lockdrop_pcl"⟩ ⟨"owner", []⟩
  ext := ⟨∅, ∅, ∅, ∅, ∅, []⟩
  env := ⟨0, 1, "lockdrop_pcl"⟩
  trace := []

/-- A lockup of two times `amount` coins comes from the XYK lockdrop, with an unlock time of
100 and a user who was paid. -/
def sampleMigration (user : Addr) (amount : Nat) (stake : Bool) : Action SampleExt :=
  .execute ⟨"lockdrop", [⟨untrnDenom, amount⟩, ⟨"usdc", amount⟩]⟩
    (.migrateXYKLiquidity .usdc user 1 ⟨5, true, 1⟩ ⟨amount, some amount, true, 5, 0, [], 100⟩
      stake)

/-! ### Taking a transaction apart -/

section Inversion

variable {x : Externals E}

theorem dispatch_callback {n : Nat} {w w' : World E} {msg : CallbackMsg}
    (h : dispatch x n w (.callback msg) = .ok w') :
    ∃ m r, handleCallback (x.querier w.ext) w.storage w.env msg = .ok r ∧
      r.messages.foldlM (dispatch x m) (w.respond r) = .ok w' :=
  x.calls.dispatch_callback rfl h

theorem asCallback_eq_none {msg : CosmosMsg} (hmsg : ∀ c, msg ≠ .callback c) :
    msg.asCallback = none := by
  cases msg with
  | callback c => exact absurd rfl (hmsg c)
  | _ => rfl

/-- A message to another contract leaves the storage alone. -/
theorem dispatch_external {n : Nat} {w w' : World E} {msg : CosmosMsg}
    (hmsg : ∀ c, msg ≠ .callback c) (h : dispatch x n w msg = .ok w') :
    ∃ ext, x.exec w.ext msg = .ok ext ∧
      w' = { w with ext := ext, trace := w.trace ++ [msg] } :=
  x.calls.dispatch_external (asCallback_eq_none hmsg) h

/-- A transaction is a handler followed by its messages. -/
theorem execute_ok {w w' : World E} {info : MessageInfo} {msg : ExecuteMsg}
    (h : w.execute x info msg = .ok w') :
    ∃ r, LockdropPcl.execute (x.querier w.ext) w.storage w.env info msg = .ok r ∧
      r.messages.foldlM (dispatch x callDepth) (w.respond r) = .ok w' ∧
      info.sender ≠ w.env.contract := by
  unfold World.execute at h
  simp only [bind_eq_ok, rejectIf_eq_ok, exists_const] at h
  obtain ⟨hsender, r, hr, hmsgs⟩ := h
  exact ⟨r, hr, hmsgs, hsender⟩

/-- Messages to other contracts. -/
def External (msgs : List CosmosMsg) : Prop := ∀ m ∈ msgs, ∀ c, m ≠ .callback c

/-- Messages to other contracts are executed one after the other, and the storage stays. -/
theorem externals_ok {n : Nat} {msgs : List CosmosMsg} {w w' : World E}
    (hmsgs : External msgs) (h : msgs.foldlM (dispatch x n) w = .ok w') :
    ∃ ext, msgs.foldlM x.exec w.ext = .ok ext ∧
      w' = { w with ext := ext, trace := w.trace ++ msgs } :=
  x.calls.foldlM_external (fun w ext msgs => { w with ext := ext, trace := w.trace ++ msgs })
    (fun _ _ => rfl) (fun _ _ _ => rfl) (fun _ _ _ => rfl) (fun _ => by simp)
    (fun _ _ _ _ _ => by simp) (fun m hm => asCallback_eq_none (hmsgs m hm)) h

end Inversion

end NeutronTge.LockdropPcl
