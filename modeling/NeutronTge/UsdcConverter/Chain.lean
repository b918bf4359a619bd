import NeutronTge.CosmWasm.Dispatch
import NeutronTge.UsdcConverter.Contract

/-!
# NeutronTge.UsdcConverter.Chain

The converter among contracts that nobody vouches for. The pools of a conversion are chosen by
its caller, so while one of them is called it may do anything: send coins, call the converter,
or start conversions of its own, whose failure it may catch. A transaction is the tree of what
is done to the converter (`Call`). The pair behind the LP tokens is an honest one: it pays for
the LP tokens that are sent to it and calls nobody.
-/

namespace NeutronTge.UsdcConverter

open CosmWasm Astroport

/-- The converter, its configuration and the LP token of the configured pair. -/
structure Deployment where
  config : Config
  contract : Addr
  lpToken : Addr
  deriving Repr, DecidableEq

/-- What can be seen of a conversion from outside. -/
inductive Event
  /-- LP tokens were sent to the converter. -/
  | received (sender : Addr) (amount : Nat)
  /-- The pair paid for LP tokens. -/
  | withdrawn (amount ntrn axlUsdc : Nat)
  /-- A swap was asked for, with the balances of the converter before. -/
  | swapping (pool : Addr) (funds : List Coin) (balances : String → Nat)
  /-- Liquidity was provided, with the balances of the converter before. -/
  | provided (pool : Addr) (msg : ProvideLiquidity) (funds : List Coin) (balances : String → Nat)

/-- What the converter owns, and the events so far. -/
structure World where
  balances : String → Nat
  lp : Nat
  log : List Event

namespace World

/-- What the converter is answered: its balances, and the LP token of the pool. -/
def querier (dep : Deployment) (w : World) : Querier where
  balance denom := .ok (w.balances denom)
  liquidityToken pair := if pair = dep.config.axlPool then .ok dep.lpToken else .error .notFound

/-- One more event of the log. -/
def note (w : World) (e : Event) : World := { w with log := w.log ++ [e] }

/-- Coins arrive. -/
def credit (w : World) (coin : Coin) : World :=
  { w with balances := fun d => w.balances d + if d = coin.denom then coin.amount else 0 }

/-- The converter sends coins away. -/
def pay (w : World) (coin : Coin) : Except StdError World := do
  rejectIf (w.balances coin.denom < coin.amount) .aborted
  .ok { w with balances := fun d => w.balances d - if d = coin.denom then coin.amount else 0 }

/-- The pair takes LP tokens of the converter and pays for them. -/
def withdraw (dep : Deployment) (w : World) (amount ntrn axlUsdc : Nat) :
    Except StdError World := do
  let lp ← Uint.checkedSub w.lp amount
  let w := { w with lp := lp }
  let w := (w.credit ⟨ntrnDenom, ntrn⟩).credit ⟨dep.config.axlUsdcDenom, axlUsdc⟩
  .ok (w.note (.withdrawn amount ntrn axlUsdc))

end World

/-- What is done to the converter in a transaction. -/
inductive Call
  /-- Coins are sent to it. -/
  | send (coin : Coin)
  /-- LP tokens are sent to it without a message. -/
  | transferLp (amount : Nat)
  /-- It is called by somebody else than itself and the LP token. -/
  | execute (info : MessageInfo) (msg : ExecuteMsg)
  /-- LP tokens are sent to it with a message, for which the pair pays `ntrn` and `axlUsdc`;
  the pools of the conversion do `swap` and `provide` while they are called. -/
  | convert (sender : Addr) (amount : Nat) (hook : Option ConvertAndStake) (ntrn axlUsdc : Nat)
      (swap provide : List Call)
  /-- Calls whose failure is caught. -/
  | attempt (calls : List Call)

/-- The callback that a message is, if it is one. -/
def CosmosMsg.asCallback : CosmosMsg → Option CallbackMsg
  | .callback msg => some msg
  | _ => none

section Exec

variable (dep : Deployment)

/-- Another contract executes a message of the converter, where `swap` and `provide` are what
the pools do. -/
def World.send (swap provide : World → Except StdError World) (ntrn axlUsdc : Nat) (w : World) :
    CosmosMsg → Except StdError World
  | .withdrawLiquidity lpToken pair amount => do
      rejectIf (lpToken ≠ dep.lpToken ∨ pair ≠ dep.config.axlPool) .aborted
      w.withdraw dep amount ntrn axlUsdc
  | .swap pool _ funds => do
      let w ← funds.foldlM World.pay (w.note (.swapping pool funds w.balances))
      swap w
  | .provideLiquidity pool msg funds => do
      let w ← funds.foldlM World.pay (w.note (.provided pool msg funds w.balances))
      provide w
  | .callback _ => .error .aborted

/-- How the messages of the converter are executed. -/
def calls (swap provide : World → Except StdError World) (ntrn axlUsdc : Nat) :
    Calls World CosmosMsg CallbackMsg (List CosmosMsg) World StdError where
  callback := CosmosMsg.asCallback
  handle w msg := handleCallback (w.querier dep) dep.config msg
  respond w _ := w
  messages msgs := msgs
  exec w msg := w.send dep swap provide ntrn axlUsdc msg
  sent _ w _ := w
  tooDeep := .aborted

/-- Execute one message. The number bounds the nesting of callbacks. -/
def dispatch (swap provide : World → Except StdError World) (ntrn axlUsdc : Nat) :
    Nat → World → CosmosMsg → Except StdError World :=
  (calls dep swap provide ntrn axlUsdc).dispatch

/-- How deep callbacks nest: the swap callback sends the stake callback. -/
def callDepth : Nat := 2

mutual
/-- Execute one call. -/
def execCall : Call → World → Except StdError World
  | .send coin, w => .ok (w.credit coin)
  | .transferLp amount, w => .ok { w with lp := w.lp + amount }
  | .execute info msg, w => do
      rejectIf (info.sender = dep.contract ∨ info.sender = dep.lpToken) .aborted
      let w := info.funds.foldl World.credit w
      let msgs ← execute (w.querier dep) dep.config dep.contract info msg
      msgs.foldlM (dispatch dep .ok .ok 0 0 callDepth) w
  | .convert sender amount hook ntrn axlUsdc swap provide, w => do
      let w := { w with lp := w.lp + amount, log := w.log ++ [.received sender amount] }
      let msgs ← execute (w.querier dep) dep.config dep.contract ⟨dep.lpToken, []⟩
        (.receive ⟨sender, amount, hook⟩)
      msgs.foldlM (dispatch dep (execCalls swap) (execCalls provide) ntrn axlUsdc callDepth) w
  | .attempt calls, w =>
      match execCalls calls w with
      | .ok w' => .ok w'
      | .error _ => .ok w
/-- Execute calls one after the other. -/
def execCalls : List Call → World → Except StdError World
  | [], w => .ok w
  | call :: calls, w => do
      let w ← execCall call w
      execCalls calls w
end

end Exec

/-! ### Taking a call apart -/

section Inversion

variable {dep : Deployment} {w w' : World}

theorem pay_ok {coin : Coin} (h : w.pay coin = .ok w') :
    coin.amount ≤ w.balances coin.denom ∧ w' = { w with
      balances := fun d => w.balances d - if d = coin.denom then coin.amount else 0 } := by
  simp only [World.pay, bind_eq_ok, rejectIf_eq_ok, exists_const, not_lt, Except.ok.injEq] at h
  exact ⟨h.1, h.2.symm⟩

theorem withdraw_ok {amount ntrn axlUsdc : Nat}
    (h : w.withdraw dep amount ntrn axlUsdc = .ok w') :
    amount ≤ w.lp ∧ w' = { w with
      balances := fun d => w.balances d + (if d = ntrnDenom then ntrn else 0) +
        if d = dep.config.axlUsdcDenom then axlUsdc else 0
      lp := w.lp - amount
      log := w.log ++ [.withdrawn amount ntrn axlUsdc] } := by
  simp only [World.withdraw, bind_eq_ok, Uint.checkedSub_eq_ok, Except.ok.injEq] at h
  obtain ⟨_, ⟨hle, rfl⟩, rfl⟩ := h
  exact ⟨hle, rfl⟩

section Dispatch

variable {swap provide : World → Except StdError World} {ntrn axlUsdc n : Nat}

theorem dispatch_callback {msg : CallbackMsg}
    (h : dispatch dep swap provide ntrn axlUsdc n w (.callback msg) = .ok w') :
    ∃ m msgs, handleCallback (w.querier dep) dep.config msg = .ok msgs ∧
      msgs.foldlM (dispatch dep swap provide ntrn axlUsdc m) w = .ok w' :=
  (calls dep swap provide ntrn axlUsdc).dispatch_callback rfl h

theorem dispatch_send {msg : CosmosMsg} (hmsg : msg.asCallback = none)
    (h : dispatch dep swap provide ntrn axlUsdc n w msg = .ok w') :
    w.send dep swap provide ntrn axlUsdc msg = .ok w' := by
  obtain ⟨t, hsend, rfl⟩ := (calls dep swap provide ntrn axlUsdc).dispatch_external hmsg h
  exact hsend

theorem dispatch_withdraw {lpToken pair : Addr} {amount : Nat}
    (h : dispatch dep swap provide ntrn axlUsdc n w (.withdrawLiquidity lpToken pair amount) =
      .ok w') : w.withdraw dep amount ntrn axlUsdc = .ok w' := by
  have hsend := dispatch_send rfl h
  simp only [World.send, bind_eq_ok, rejectIf_eq_ok, exists_const] at hsend
  exact hsend.2

theorem dispatch_swap {pool : Addr} {offerAsset : Asset} {funds : List Coin}
    (h : dispatch dep swap provide ntrn axlUsdc n w (.swap pool offerAsset funds) = .ok w') :
    ∃ paid, funds.foldlM World.pay (w.note (.swapping pool funds w.balances)) = .ok paid ∧
      swap paid = .ok w' :=
  bind_eq_ok.mp (dispatch_send rfl h)

theorem dispatch_provide {pool : Addr} {msg : ProvideLiquidity} {funds : List Coin}
    (h : dispatch dep swap provide ntrn axlUsdc n w (.provideLiquidity pool msg funds) =
      .ok w') :
    ∃ paid, funds.foldlM World.pay (w.note (.provided pool msg funds w.balances)) = .ok paid ∧
      provide paid = .ok w' :=
  bind_eq_ok.mp (dispatch_send rfl h)

end Dispatch

/-- Nobody but the LP token and the converter itself gets past the guards. -/
theorem execute_rejected {q : Querier} {info : MessageInfo} {msg : ExecuteMsg}
    {msgs : List CosmosMsg} (hcontract : info.sender ≠ dep.contract)
    (htoken : q.liquidityToken dep.config.axlPool = .ok dep.lpToken)
    (hsender : info.sender ≠ dep.lpToken) :
    execute q dep.config dep.contract info msg ≠ .ok msgs := by
  intro h
  cases msg with
  | receive msg =>
      simp only [execute, receiveCw20, bind_eq_ok, htoken, rejectIf_eq_ok, exists_const, not_not,
        Except.ok.injEq] at h
      obtain ⟨_, rfl, heq, -⟩ := h
      exact hsender heq
  | callback msg =>
      simp only [execute, bind_eq_ok, rejectIf_eq_ok, exists_const, not_not] at h
      exact hcontract h.1

end Inversion

end NeutronTge.UsdcConverter
