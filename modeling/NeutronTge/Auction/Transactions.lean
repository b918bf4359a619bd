import NeutronTge.Auction.Effects

/-!
# NeutronTge.Auction.Transactions

The transactions of the auction, taken apart: a handler and its messages, and for `InitPool`
the two provisions of liquidity, the callback and its messages. `execute_cases` has the two
shapes.
-/

namespace NeutronTge.Auction

open CosmWasm Astroport
open Lockdrop (PoolType)

variable {E : Type} {x : Externals E} {w w' : World E} {info : MessageInfo} {msg : ExecuteMsg}

/-- A transaction of any message but `InitPool`. -/
structure Responds (x : Externals E) (w w' : World E) (info : MessageInfo) (msg : ExecuteMsg)
    (msgs : List CosmosMsg) : Prop where
  effect : Effect ((w.receive info).querier x) w.storage w.env info w'.storage msgs msg
  external : External msgs
  bank : (w.bank.receive info.funds).send (msgs.flatMap CosmosMsg.coins) = .ok w'.bank
  exec : msgs.foldlM x.exec w.ext = .ok w'.ext
  env : w'.env = w.env
  trace : w'.trace = w.trace ++ msgs

/-- A transaction of `InitPool`: the liquidity is provided in `w₁`, and the callback divides
the LP tokens that were minted. -/
structure InitPools (x : Externals E) (w w₁ w' : World E) (info : MessageInfo)
    (usdcDenom atomDenom : String) (poolInfo : PoolInfo) (prev cur : PoolBalance)
    (lockdrop : Addr) (provide₁ provide₂ : CosmosMsg) (msgs : List CosmosMsg) : Prop where
  starts : StartsPools ((w.receive info).querier x) w.storage w.storage w.env
    [provide₁, provide₂, .callback (.finalizePoolInitialization prev)] usdcDenom atomDenom
    poolInfo prev
  bank₁ : (w.bank.receive info.funds).send (provide₁.coins ++ provide₂.coins) = .ok w₁.bank
  exec₁ : [provide₁, provide₂].foldlM x.exec w.ext = .ok w₁.ext
  finalizes : Finalizes (w₁.querier x) w.storage w'.storage w.env msgs prev lockdrop poolInfo cur
  bank : w'.bank = w₁.bank
  exec : msgs.foldlM x.exec w₁.ext = .ok w'.ext
  env : w'.env = w.env
  trace : w'.trace = w.trace ++ provide₁ :: provide₂ :: msgs

theorem Finalizes.coins {q : Querier} {s s' : Storage} {env : Env} {msgs : List CosmosMsg}
    {prev cur : PoolBalance} {lockdrop : Addr} {poolInfo : PoolInfo}
    (h : Finalizes q s s' env msgs prev lockdrop poolInfo cur) :
    msgs.flatMap CosmosMsg.coins = [] := by
  rw [h.messages]
  unfold lockedLpMsg
  split_ifs <;> rfl

theorem execute_initPool {r : Response}
    (hr : executeInitPool ((w.receive info).querier x) w.storage w.env = .ok r)
    (hrun : r.messages.foldlM (dispatch x callDepth) { w.receive info with storage := r.storage } =
      .ok w') :
    ∃ w₁ usdcDenom atomDenom poolInfo prev cur lockdrop provide₁ provide₂ msgs,
      InitPools x w w₁ w' info usdcDenom atomDenom poolInfo prev cur lockdrop provide₁ provide₂
        msgs := by
  obtain ⟨usdcDenom, atomDenom, poolInfo, prev, hstarts⟩ := executeInitPool_ok hr
  have hmessages := hstarts.messages
  have hstorage := hstarts.storage
  rw [hmessages] at hrun hstarts
  obtain ⟨t₁, h₁, hrun⟩ := foldlM_cons_ok.mp hrun
  obtain ⟨b₁, e₁, hb₁, he₁, rfl⟩ := dispatch_external (fun _ => CosmosMsg.noConfusion) h₁
  obtain ⟨t₂, h₂, hrun⟩ := foldlM_cons_ok.mp hrun
  obtain ⟨b₂, e₂, hb₂, he₂, rfl⟩ := dispatch_external (fun _ => CosmosMsg.noConfusion) h₂
  obtain ⟨m, r', hr', hrun'⟩ := dispatch_callback (foldlM_singleton_ok.mp hrun)
  simp only [executeCallback, bind_eq_ok, rejectIf_eq_ok, exists_const] at hr'
  obtain ⟨-, hr'⟩ := hr'
  obtain ⟨lockdrop, poolInfo', cur, hfinal⟩ := executeFinalizeInitPool_ok hr'
  obtain ⟨b₃, e₃, hb₃, he₃, rfl⟩ := externals_ok hfinal.external hrun'
  rw [hfinal.coins] at hb₃
  obtain rfl := Except.ok.inj hb₃
  have hsame : r.storage = w.storage := hstorage
  rw [hsame] at hfinal hstarts
  -- the pool is configured once for the whole transaction
  obtain rfl : poolInfo' = poolInfo :=
    Option.some.inj (hfinal.poolInfo_eq.symm.trans hstarts.poolInfo_eq)
  refine ⟨{ w with bank := b₂, ext := e₂ }, usdcDenom, atomDenom, poolInfo', prev, cur, lockdrop,
    buildProvideLiquidityToLpPoolMsg poolInfo'.ntrnUsdcPoolAddress w.storage.state.usdcNtrnSize
      w.storage.config.ntrnDenom w.storage.state.totalUsdcDeposited usdcDenom,
    buildProvideLiquidityToLpPoolMsg poolInfo'.ntrnAtomPoolAddress w.storage.state.atomNtrnSize
      w.storage.config.ntrnDenom w.storage.state.totalAtomDeposited atomDenom, r'.messages, ?_⟩
  constructor
  · exact hstarts
  · exact foldlM_append_ok.mpr ⟨b₁, hb₁, hb₂⟩
  · exact foldlM_cons_ok.mpr ⟨e₁, he₁, foldlM_singleton_ok.mpr he₂⟩
  · exact hfinal
  · rfl
  · exact he₃
  · rfl
  · simp [World.receive]

theorem Effect.external {q : Querier} {s s' : Storage} {env : Env} {msgs : List CosmosMsg}
    (h : Effect q s env info s' msgs msg) (hmsg : msg ≠ .initPool) : External msgs := by
  cases h with
  | configure _ _ hmsgs => exact by simp [External, hmsgs]
  | deposit _ _ _ _ hmsgs => exact by simp [External, hmsgs]
  | withdraw _ _ _ _ _ _ h =>
      rw [h.messages]
      intro m hm c
      unfold withdrawMsg at hm
      rcases List.mem_append.mp hm with hm | hm <;> split_ifs at hm
      · rw [List.mem_singleton.mp hm]
        exact CosmosMsg.noConfusion
      · cases hm
      · rw [List.mem_singleton.mp hm]
        exact CosmosMsg.noConfusion
      · cases hm
  | size _ _ _ _ _ _ _ _ hmsgs => exact by simp [External, hmsgs]
  | initPool => exact absurd rfl hmsg
  | lock _ _ _ _ _ h => simp [External, h.messages]
  | unlock _ _ _ _ _ h => simp [External, h.messages]
  | vest _ _ h =>
      rw [h.messages]
      intro m hm
      rcases List.mem_append.mp hm with hm | hm <;> exact vestingMsg_external m hm

/-- A transaction: `InitPool` with its callback, or a handler and its messages. -/
theorem execute_cases (h : w.execute x info msg = .ok w') :
    (∃ msgs, Responds x w w' info msg msgs ∧ msg ≠ .initPool) ∨
      msg = .initPool ∧ ∃ w₁ usdcDenom atomDenom poolInfo prev cur lockdrop provide₁ provide₂ msgs,
        InitPools x w w₁ w' info usdcDenom atomDenom poolInfo prev cur lockdrop provide₁ provide₂
          msgs := by
  obtain ⟨r, hr, hrun, hsender⟩ := execute_ok h
  by_cases hmsg : msg = .initPool
  · obtain rfl := hmsg
    exact Or.inr ⟨rfl, execute_initPool hr hrun⟩
  · have heffect := execute_effect hsender hr
    have hexternal := heffect.external hmsg
    obtain ⟨bank, ext, hbank, hexec, rfl⟩ := externals_ok hexternal hrun
    exact Or.inl ⟨r.messages, ⟨heffect, hexternal, hbank, hexec, rfl, rfl⟩, hmsg⟩

end NeutronTge.Auction
