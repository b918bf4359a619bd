import NeutronTge.CosmWasm.Dispatch
import NeutronTge.CosmWasm.Run
import NeutronTge.Lockdrop.Callbacks

/-!
# NeutronTge.Lockdrop.Chain

The lockdrop on its chain. A transaction runs a handler and then the messages it sent,
depth first: the messages of a callback are executed before the messages that follow it.
When one of them fails the whole transaction fails.

The other contracts are a parameter (`Externals`): a state of any type, what the lockdrop
can read from it, and what the lockdrop's messages do to it. They do not call back into
the lockdrop. The world also has a trace of the messages that went out and of the rewards
that came in.
-/

namespace NeutronTge.Lockdrop

open CosmWasm

/-- The contracts around the lockdrop. -/
structure Externals (E : Type) where
  querier : E → Querier
  exec : E → CosmosMsg → Except StdError E

/-- What the trace of a run records. -/
inductive Event
  /-- A message to another contract was executed. -/
  | sent (msg : CosmosMsg)
  /-- `update_pool_on_dual_rewards_claim` booked a base reward. -/
  | ntrnRewardReceived (poolType : PoolType) (amount : Nat)
  deriving Repr, DecidableEq

/-- The lockdrop, the contracts around it and the time. -/
structure World (E : Type) where
  storage : Storage
  ext : E
  env : Env
  trace : List Event

variable {E : Type}

/-- The event a response stands for. -/
def Response.events (r : Response) : List Event :=
  match r.ntrnRewardReceived with
  | some (poolType, amount) => [.ntrnRewardReceived poolType amount]
  | none => []

/-- The world after a handler returned, before its messages are executed. -/
def World.respond (w : World E) (r : Response) : World E :=
  { w with storage := r.storage, trace := w.trace ++ r.events }

/-- The callback that a message is, if it is one. -/
def CosmosMsg.asCallback : CosmosMsg → Option CallbackMsg
  | .callback msg => some msg
  | _ => none

section Exec

variable (x : Externals E)

/-- How the messages of the lockdrop are executed. -/
def Externals.calls : Calls (World E) CosmosMsg CallbackMsg Response E StdError where
  callback := CosmosMsg.asCallback
  handle w msg := handleCallback (x.querier w.ext) w.storage w.env msg
  respond := World.respond
  messages := Response.messages
  exec w msg := x.exec w.ext msg
  sent w ext msg := { w with ext := ext, trace := w.trace ++ [.sent msg] }
  tooDeep := .aborted

/-- Execute one message. The number bounds the nesting of callbacks. -/
def dispatch : Nat → World E → CosmosMsg → Except StdError (World E) := x.calls.dispatch

/-- How deep callbacks nest: the four steps of a migration. -/
def callDepth : Nat := 4

/-- A transaction that somebody sends to the lockdrop. -/
def World.execute (w : World E) (info : MessageInfo) (msg : ExecuteMsg) :
    Except StdError (World E) := do
  rejectIf (info.sender = w.env.contract) .aborted
  let r ← Lockdrop.execute (x.querier w.ext) w.storage w.env info msg
  r.messages.foldlM (dispatch x callDepth) (w.respond r)

/-- What happens in a run. -/
inductive Action (E : Type)
  /-- Time passes. -/
  | advance (seconds blocks : Nat)
  /-- The other contracts change by themselves. -/
  | drift (ext : E)
  /-- The code is migrated and learns the PCL lockdrop. -/
  | migrate (pclLockdropContract : Addr)
  | execute (info : MessageInfo) (msg : ExecuteMsg)

/-- One action of a run. -/
def World.exec (w : World E) : Action E → Except StdError (World E)
  | .advance seconds blocks =>
      .ok { w with env :=
        { w.env with time := w.env.time + seconds, height := w.env.height + blocks } }
  | .drift ext => .ok { w with ext := ext }
  | .migrate pclLockdropContract =>
      .ok { w with storage := Lockdrop.migrate w.storage pclLockdropContract }
  | .execute info msg => w.execute x info msg

end Exec

/-! ### Counting in the trace -/

/-- The total over the trace of what `f` counts for an event. -/
def World.count (f : Event → Nat) (w : World E) : Nat := (w.trace.map f).sum

/-- The total of what `f` counts for messages that are sent. -/
def countSent (f : Event → Nat) (msgs : List CosmosMsg) : Nat :=
  (msgs.map fun m => f (.sent m)).sum

section Count

variable {f : Event → Nat} {w w' : World E} {msgs : List CosmosMsg}

theorem count_append {events : List Event} (h : w'.trace = w.trace ++ events) :
    w'.count f = w.count f + (events.map f).sum := by
  simp only [World.count, h, List.map_append, List.sum_append]

theorem count_sent (h : w'.trace = w.trace ++ msgs.map Event.sent) :
    w'.count f = w.count f + countSent f msgs := by
  rw [count_append h, List.map_map]
  rfl

@[simp] theorem countSent_nil : countSent f [] = 0 := rfl

@[simp] theorem countSent_append (xs ys : List CosmosMsg) :
    countSent f (xs ++ ys) = countSent f xs + countSent f ys := by
  simp [countSent]

theorem countSent_eq_zero (h : ∀ m ∈ msgs, f (.sent m) = 0) : countSent f msgs = 0 := by
  unfold countSent
  rw [List.sum_eq_zero_iff]
  intro n hn
  obtain ⟨m, hm, rfl⟩ := List.mem_map.mp hn
  exact h m hm

end Count

/-! ### A small chain

The other contracts as far as the lockdrop notices them, for the runs on concrete inputs:
a generator with deposits and pending rewards, and the lockdrop's own balance. -/

/-- A generator that knows deposits and pending rewards by LP token, and the balance of the
lockdrop in the base reward. -/
structure SampleExt where
  deposits : Map Addr Nat
  pending : Map Addr Nat
  balance : Nat

/-- The generator's deposit of an LP token. -/
def SampleExt.deposit (e : SampleExt) (lpToken : Addr) : Nat :=
  (e.deposits.mayLoad lpToken).getD 0

/-- What the small chain answers to the queries of the lockdrop. -/
def SampleExt.querier (e : SampleExt) : Querier where
  pendingToken _ lpToken := .ok ⟨(e.pending.mayLoad lpToken).getD 0, none⟩
  baseRewardToken _ _ := .ok untrnDenom
  deposit _ lpToken := .ok (e.deposit lpToken)
  rawGeneratorDeposit _ lpToken := .ok (e.deposit lpToken)
  rewardProxies _ _ := .ok []
  rawProxyAsset _ _ := .error .notFound
  tokenBalance _ := .ok 0
  rawBalance _ := .ok 0
  minter lpToken := .ok (lpToken ++ "_pair")
  poolAssets pair := .ok [.nativeToken untrnDenom, .nativeToken (pair ++ "_asset")]
  bankBalance denom := .ok (if denom = untrnDenom then e.balance else 0)
  queryPool _ := .ok 0
  creditsBalance _ _ := .ok 0
  withdrawableAmount _ _ := .ok 0
  vestedAmount _ _ := .ok 0

/-- What the messages of the lockdrop do on the small chain. -/
def SampleExt.exec (e : SampleExt) : CosmosMsg → Except StdError SampleExt
  | .sendDeposit token _ amount =>
      .ok { e with deposits := e.deposits.save token (e.deposit token + amount) }
  | .generatorWithdraw _ lpToken amount => do
      let rest ← Uint.checkedSub (e.deposit lpToken) amount
      .ok { e with deposits := e.deposits.save lpToken rest }
  | .claimRewards _ lpTokens =>
      .ok { e with
        pending := lpTokens.foldl (fun m lpToken => m.save lpToken 0) e.pending
        balance := e.balance + (lpTokens.map fun t => (e.pending.mayLoad t).getD 0).sum }
  | .bankSend _ _ coin => do
      let rest ← Uint.checkedSub e.balance coin.amount
      .ok { e with balance := rest }
  | _ => .ok e

/-- The small chain as the contracts around the lockdrop. -/
def sampleExternals : Externals SampleExt := ⟨SampleExt.querier, SampleExt.exec⟩

/-- A lockdrop with a lock window from 100 to 200 and a withdrawal window until 250. -/
def sampleInstantiateMsg : InstantiateMsg where
  owner := some "owner"
  tokenInfoManager := "manager"
  creditsContract := "credits"
  auctionContract := "auction"
  initTimestamp := 100
  lockWindow := 100
  withdrawalWindow := 50
  minLockDuration := 1
  maxLockDuration := 52
  maxPositionsPerUser := 14
  lockupRewardsInfo := [⟨1, ⟨0⟩⟩, ⟨2, ⟨FixedPoint.fractional⟩⟩]

/-- A lockdrop right after `instantiate`. -/
def sampleStart : World SampleExt where
  storage := sampleInstantiateMsg.storage ⟨"owner", []⟩
  ext := ⟨∅, ∅, 0⟩
  env := ⟨0, 1, "lockdrop"⟩
  trace := []

/-! ### Taking a transaction apart -/

section Inversion

variable {x : Externals E}

theorem dispatch_callback {n : Nat} {w w' : World E} {msg : CallbackMsg}
    (h : dispatch x n w (.callback msg) = .ok w') :
    ∃ m r, handleCallback (x.querier w.ext) w.storage w.env msg = .ok r ∧
      r.messages.foldlM (dispatch x m) (w.respond r) = .ok w' :=
  x.calls.dispatch_callback rfl h

theorem asCallback_eq_none {msg : CosmosMsg} (hmsg : ∀ c, msg ≠ .callback c) :
    msg.asCallback = none := by
  cases msg with
  | callback c => exact absurd rfl (hmsg c)
  | _ => rfl

/-- A message to another contract leaves the lockdrop's storage alone. -/
theorem dispatch_external {n : Nat} {w w' : World E} {msg : CosmosMsg}
    (hmsg : ∀ c, msg ≠ .callback c) (h : dispatch x n w msg = .ok w') :
    ∃ ext, x.exec w.ext msg = .ok ext ∧
      w' = { w with ext := ext, trace := w.trace ++ [.sent msg] } :=
  x.calls.dispatch_external (asCallback_eq_none hmsg) h

/-- A transaction is a handler followed by its messages. -/
theorem execute_ok {w w' : World E} {info : MessageInfo} {msg : ExecuteMsg}
    (h : w.execute x info msg = .ok w') :
    ∃ r, Lockdrop.execute (x.querier w.ext) w.storage w.env info msg = .ok r ∧
      r.messages.foldlM (dispatch x callDepth) (w.respond r) = .ok w' ∧
      info.sender ≠ w.env.contract := by
  unfold World.execute at h
  simp only [bind_eq_ok, rejectIf_eq_ok, exists_const] at h
  obtain ⟨hsender, r, hr, hmsgs⟩ := h
  exact ⟨r, hr, hmsgs, hsender⟩

/-- Messages to other contracts only: they are executed one after the other, and the
lockdrop's storage stays. -/
theorem externals_ok {n : Nat} {msgs : List CosmosMsg} {w w' : World E}
    (hmsgs : ∀ m ∈ msgs, ∀ c, m ≠ .callback c) (h : msgs.foldlM (dispatch x n) w = .ok w') :
    ∃ ext, msgs.foldlM x.exec w.ext = .ok ext ∧
      w' = { w with ext := ext, trace := w.trace ++ msgs.map Event.sent } :=
  x.calls.foldlM_external
    (fun w ext msgs => { w with ext := ext, trace := w.trace ++ msgs.map Event.sent })
    (fun _ _ => rfl) (fun _ _ _ => rfl) (fun _ _ _ => rfl) (fun _ => by simp)
    (fun _ _ _ _ _ => by simp) (fun m hm => asCallback_eq_none (hmsgs m hm)) h

end Inversion

end NeutronTge.Lockdrop
