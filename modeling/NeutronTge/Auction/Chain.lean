import NeutronTge.CosmWasm.Dispatch
import NeutronTge.CosmWasm.Run
import NeutronTge.Auction.Contract

/-!
# NeutronTge.Auction.Chain

The auction on its chain. The world has the contract's storage and its native coins: the
coins of a call arrive before it is executed, and the messages that carry coins take them.
The other contracts are a parameter (`Externals`); they do not call back.
-/

namespace NeutronTge.Auction

open CosmWasm

/-- The contracts around the auction. -/
structure Externals (E : Type) where
  /-- The auction's cw20 `Balance` of a token. -/
  tokenBalance : E → Addr → Except StdError Nat
  /-- `GetRate` of a price feed. -/
  getRate : E → Addr → Except StdError (List PriceFeedRate)
  exec : E → CosmosMsg → Except StdError E

/-- The contract's native coins, by denom. -/
abbrev Bank := String → Nat

namespace Bank

/-- Coins arrive. -/
def receive (bank : Bank) (coins : List Coin) : Bank :=
  coins.foldl (fun b coin => Function.update b coin.denom (b coin.denom + coin.amount)) bank

/-- Coins leave, if there are enough. -/
def send (bank : Bank) (coins : List Coin) : Except StdError Bank :=
  coins.foldlM
    (fun b coin => do
      let rest ← Uint.checkedSub (b coin.denom) coin.amount
      .ok (Function.update b coin.denom rest))
    bank

end Bank

/-- The auction with its bank balances, the contracts around it and the time. -/
structure World (E : Type) where
  storage : Storage
  bank : Bank
  ext : E
  env : Env
  /-- The messages that went out. -/
  trace : List CosmosMsg

/-- The coins that go out with a message. -/
def CosmosMsg.coins : CosmosMsg → List Coin
  | .bankSend _ amount => [amount]
  | .provideLiquidity _ _ funds => funds
  | _ => []

/-- The callback that a message is, if it is one. -/
def CosmosMsg.asCallback : CosmosMsg → Option CallbackMsg
  | .callback msg => some msg
  | _ => none

variable {E : Type}

section Exec

variable (x : Externals E)

/-- What the contract can read. -/
def World.querier (w : World E) : Querier where
  bankBalance denom := .ok (w.bank denom)
  tokenBalance := x.tokenBalance w.ext
  getRate := x.getRate w.ext

/-- How the messages of the auction are executed. -/
def Externals.calls : Calls (World E) CosmosMsg CallbackMsg Response (Bank × E) StdError where
  callback := CosmosMsg.asCallback
  handle w msg := executeCallback (w.querier x) w.storage w.env ⟨w.env.contract, []⟩ msg
  respond w r := { w with storage := r.storage }
  messages := Response.messages
  exec w msg := do
    let bank ← w.bank.send msg.coins
    let ext ← x.exec w.ext msg
    .ok (bank, ext)
  sent w e msg := { w with bank := e.1, ext := e.2, trace := w.trace ++ [msg] }
  tooDeep := .aborted

/-- Execute one message. The number bounds the nesting of callbacks. -/
def dispatch : Nat → World E → CosmosMsg → Except StdError (World E) := x.calls.dispatch

/-- How deep callbacks nest: `InitPool` calls one. -/
def callDepth : Nat := 1

/-- The world after the coins of a call arrived. -/
def World.receive (w : World E) (info : MessageInfo) : World E :=
  { w with bank := w.bank.receive info.funds }

/-- A transaction that somebody sends to the auction. -/
def World.execute (w : World E) (info : MessageInfo) (msg : ExecuteMsg) :
    Except StdError (World E) := do
  rejectIf (info.sender = w.env.contract) .aborted
  let w := w.receive info
  let r ← Auction.execute (w.querier x) w.storage w.env info msg
  r.messages.foldlM (dispatch x callDepth) { w with storage := r.storage }

/-- What happens in a run. -/
inductive Action (E : Type)
  /-- Time passes. -/
  | advance (seconds blocks : Nat)
  /-- The other contracts change by themselves. -/
  | drift (ext : E)
  /-- Somebody sends coins to the contract. -/
  | donate (coins : List Coin)
  | execute (info : MessageInfo) (msg : ExecuteMsg)

/-- One action of a run. -/
def World.exec (w : World E) : Action E → Except StdError (World E)
  | .advance seconds blocks =>
      .ok { w with env :=
        { w.env with time := w.env.time + seconds, height := w.env.height + blocks } }
  | .drift ext => .ok { w with ext := ext }
  | .donate coins => .ok { w with bank := w.bank.receive coins }
  | .execute info msg => w.execute x info msg

/-- The contract right after it was instantiated. -/
structure Started (w : World E) : Prop where
  storage : ∃ env info msg, instantiate env info msg = .ok w.storage ∧
    w.env.time = env.time
  trace : w.trace = []

end Exec

/-! ### Inversion -/

section Inversion

variable {x : Externals E}

theorem dispatch_callback {n : Nat} {w w' : World E} {msg : CallbackMsg}
    (h : dispatch x n w (.callback msg) = .ok w') :
    ∃ m r, executeCallback (w.querier x) w.storage w.env ⟨w.env.contract, []⟩ msg = .ok r ∧
      r.messages.foldlM (dispatch x m) { w with storage := r.storage } = .ok w' :=
  x.calls.dispatch_callback rfl h

theorem asCallback_eq_none {msg : CosmosMsg} (hmsg : ∀ c, msg ≠ .callback c) :
    msg.asCallback = none := by
  cases msg with
  | callback c => exact absurd rfl (hmsg c)
  | _ => rfl

theorem dispatch_external {n : Nat} {w w' : World E} {msg : CosmosMsg}
    (hmsg : ∀ c, msg ≠ .callback c) (h : dispatch x n w msg = .ok w') :
    ∃ bank ext, w.bank.send msg.coins = .ok bank ∧ x.exec w.ext msg = .ok ext ∧
      w' = { w with bank := bank, ext := ext, trace := w.trace ++ [msg] } := by
  obtain ⟨_, hexec, rfl⟩ := x.calls.dispatch_external (asCallback_eq_none hmsg) h
  obtain ⟨bank, hbank, hsend⟩ := bind_eq_ok.mp hexec
  obtain ⟨ext, hext, hret⟩ := bind_eq_ok.mp hsend
  obtain rfl := Except.ok.inj hret
  exact ⟨bank, ext, hbank, hext, rfl⟩

/-- A transaction is a handler followed by its messages. -/
theorem execute_ok {w w' : World E} {info : MessageInfo} {msg : ExecuteMsg}
    (h : w.execute x info msg = .ok w') :
    ∃ r, Auction.execute ((w.receive info).querier x) w.storage w.env info msg = .ok r ∧
      r.messages.foldlM (dispatch x callDepth) { w.receive info with storage := r.storage } =
        .ok w' ∧
      info.sender ≠ w.env.contract := by
  unfold World.execute at h
  simp only [bind_eq_ok, rejectIf_eq_ok, exists_const] at h
  obtain ⟨hsender, r, hr, hrun⟩ := h
  exact ⟨r, hr, hrun, hsender⟩

/-- Messages to others only. -/
def External (msgs : List CosmosMsg) : Prop := ∀ m ∈ msgs, ∀ c, m ≠ .callback c

/-- Messages to others leave the contract's storage alone: their coins are sent and they are
executed, one after the other. -/
theorem externals_ok {n : Nat} : ∀ {msgs : List CosmosMsg} {w w' : World E},
    External msgs → msgs.foldlM (dispatch x n) w = .ok w' →
      ∃ bank ext, w.bank.send (msgs.flatMap CosmosMsg.coins) = .ok bank ∧
        msgs.foldlM x.exec w.ext = .ok ext ∧
        w' = { w with bank := bank, ext := ext, trace := w.trace ++ msgs } := by
  intro msgs
  induction msgs with
  | nil =>
      intro w w' _ h
      obtain rfl := Except.ok.inj h
      exact ⟨w.bank, w.ext, rfl, rfl, by simp⟩
  | cons m ms ih =>
      intro w w' hext h
      obtain ⟨t, ht, hrest⟩ := foldlM_cons_ok.mp h
      obtain ⟨bank, ext, hbank, hexec, rfl⟩ := dispatch_external (hext m List.mem_cons_self) ht
      obtain ⟨bank', ext', hbank', hrun, rfl⟩ :=
        ih (fun a ha => hext a (List.mem_cons_of_mem _ ha)) hrest
      refine ⟨bank', ext', ?_, foldlM_cons_ok.mpr ⟨ext, hexec, hrun⟩, by simp⟩
      rw [List.flatMap_cons]
      exact foldlM_append_ok.mpr ⟨bank, hbank, hbank'⟩

end Inversion

/-! ### The bank -/

namespace Bank

variable {bank bank' : Bank} {coins : List Coin} {denom : String}

/-- How much of a denom some coins are. -/
def amountOf (denom : String) (coins : List Coin) : Nat :=
  (coins.map fun coin => if coin.denom = denom then coin.amount else 0).sum

@[simp] theorem amountOf_nil : amountOf denom [] = 0 := rfl

@[simp] theorem amountOf_cons (coin : Coin) :
    amountOf denom (coin :: coins) =
      (if coin.denom = denom then coin.amount else 0) + amountOf denom coins := by
  simp [amountOf]

@[simp] theorem amountOf_append (coins coins' : List Coin) :
    amountOf denom (coins ++ coins') = amountOf denom coins + amountOf denom coins' := by
  simp [amountOf]

theorem receive_apply (denom : String) :
    bank.receive coins denom = bank denom + amountOf denom coins := by
  induction coins generalizing bank with
  | nil => rfl
  | cons coin coins ih =>
      show receive (Function.update bank coin.denom (bank coin.denom + coin.amount)) coins denom =
        bank denom + amountOf denom (coin :: coins)
      rw [ih, amountOf_cons]
      by_cases hd : denom = coin.denom
      · rw [hd, Function.update_self, if_pos rfl]
        omega
      · rw [Function.update_of_ne hd, if_neg (Ne.symm hd)]
        omega

/-- What is sent was there, and the rest stays. -/
theorem send_ok (h : bank.send coins = .ok bank') (denom : String) :
    bank denom = bank' denom + amountOf denom coins := by
  induction coins generalizing bank with
  | nil =>
      obtain rfl := Except.ok.inj h
      rfl
  | cons coin coins ih =>
      obtain ⟨b, hb, hrest⟩ := foldlM_cons_ok.mp h
      simp only [bind_eq_ok, Uint.checkedSub_eq_ok, Except.ok.injEq] at hb
      obtain ⟨_, ⟨hle, rfl⟩, rfl⟩ := hb
      have hsent := ih hrest
      rw [amountOf_cons]
      by_cases hd : denom = coin.denom
      · rw [hd, Function.update_self] at hsent
        rw [hd, if_pos rfl]
        omega
      · rw [Function.update_of_ne hd] at hsent
        rw [if_neg (Ne.symm hd)]
        omega

/-- Coins that are there can be sent. -/
theorem send_isOk (h : ∀ denom, amountOf denom coins ≤ bank denom) :
    ∃ bank', bank.send coins = .ok bank' := by
  induction coins generalizing bank with
  | nil => exact ⟨bank, rfl⟩
  | cons coin coins ih =>
      have hcoin : coin.amount ≤ bank coin.denom := by
        have hle := h coin.denom
        rw [amountOf_cons, if_pos rfl] at hle
        omega
      have hrest : ∀ denom, amountOf denom coins ≤
          Function.update bank coin.denom (bank coin.denom - coin.amount) denom := by
        intro denom
        have hle := h denom
        rw [amountOf_cons] at hle
        by_cases hd : denom = coin.denom
        · rw [hd, Function.update_self]
          rw [hd, if_pos rfl] at hle
          omega
        · rw [Function.update_of_ne hd]
          rw [if_neg (Ne.symm hd)] at hle
          omega
      obtain ⟨bank', hsend⟩ := ih hrest
      refine ⟨bank', foldlM_cons_ok.mpr ⟨_, ?_, hsend⟩⟩
      simp only [bind_eq_ok, Uint.checkedSub_eq_ok]
      exact ⟨_, ⟨hcoin, rfl⟩, rfl⟩

end Bank

end NeutronTge.Auction
