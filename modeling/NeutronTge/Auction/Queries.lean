import NeutronTge.Auction.Payouts

/-!
# NeutronTge.Auction.Queries

What the auction reports about a user: the deposits, what his part of the LP tokens is, and how
much of it is locked. From the moment the pools are made the report is final (`Phased.final`),
so what vests is what was reported.
-/

namespace NeutronTge.Auction

open CosmWasm Astroport
open Lockdrop (PoolType)

/-- What `query_user_info` answers about a user. -/
structure UserInfoResponse where
  usdcDeposited : Nat
  atomDeposited : Nat
  withdrawn : Bool
  atomLpAmount : Nat
  usdcLpAmount : Nat
  atomLpLocked : Nat
  usdcLpLocked : Nat
  deriving Repr, DecidableEq

/-- The LP tokens of the user in one of the pools. -/
def UserInfoResponse.lpAmount (p : PoolType) (r : UserInfoResponse) : Nat :=
  match p with
  | .usdc => r.usdcLpAmount
  | .atom => r.atomLpAmount

/-- The LP tokens that the user has locked of one of the pools. -/
def UserInfoResponse.lpLocked (p : PoolType) (r : UserInfoResponse) : Nat :=
  match p with
  | .usdc => r.usdcLpLocked
  | .atom => r.atomLpLocked

/-- `query_user_info`. -/
def queryUserInfo (s : Storage) (userAddress : Addr) : Except StdError UserInfoResponse := do
  let userInfo := s.user userAddress
  let userLpInfo ← getUserLpInfo userInfo s.state
  .ok
    { usdcDeposited := userInfo.usdcDeposited
      atomDeposited := userInfo.atomDeposited
      withdrawn := userInfo.withdrawn
      usdcLpAmount := userLpInfo.usdcLpAmount
      atomLpAmount := userLpInfo.atomLpAmount
      atomLpLocked := userInfo.atomLpLocked
      usdcLpLocked := userInfo.usdcLpLocked }

/-- The report depends on the record of the user and on the state. -/
theorem queryUserInfo_ok {s : Storage} {u : Addr} {r : UserInfoResponse}
    (h : queryUserInfo s u = .ok r) (p : PoolType) :
    r.lpAmount p = lpOf p (s.user u) s.state ∧ r.lpLocked p = (s.user u).lpLocked p := by
  unfold queryUserInfo at h
  simp only [bind_eq_ok, Except.ok.injEq] at h
  obtain ⟨lp, hlp, rfl⟩ := h
  have hof := getUserLpInfo_ok hlp p
  cases p with
  | usdc => exact ⟨hof, rfl⟩
  | atom => exact ⟨hof, rfl⟩

/-! ### Final reports -/

/-- Nothing changes but that users are vested. -/
structure Final (s s' : Storage) : Prop where
  state : s'.state = s.state
  user : ∀ u, s'.user u = s.user u ∨
    (s.user u).isVested = false ∧ s'.user u = { s.user u with isVested := true }

namespace Final

variable {s t v : Storage}

theorem refl (s : Storage) : Final s s := ⟨rfl, fun _ => Or.inl rfl⟩

theorem trans (h : Final s t) (h' : Final t v) : Final s v where
  state := h'.state.trans h.state
  user u := by
    rcases h.user u with hsame | ⟨hopen, hvested⟩
    · rcases h'.user u with hsame' | ⟨hopen', hvested'⟩
      · exact Or.inl (hsame'.trans hsame)
      · rw [hsame] at hopen' hvested'
        exact Or.inr ⟨hopen', hvested'⟩
    · rcases h'.user u with hsame' | ⟨hopen', -⟩
      · exact Or.inr ⟨hopen, hsame'.trans hvested⟩
      · rw [hvested] at hopen'
        cases hopen'

/-- Nobody is vested twice. -/
theorem vested (h : Final s t) {u : Addr} (hvested : (s.user u).isVested = true) :
    t.user u = s.user u := by
  rcases h.user u with hsame | ⟨hopen, -⟩
  · exact hsame
  · rw [hvested] at hopen
    cases hopen

theorem report (h : Final s t) (u : Addr) : queryUserInfo t u = queryUserInfo s u := by
  unfold queryUserInfo
  rw [h.state]
  rcases h.user u with hsame | ⟨-, hvested⟩
  · rw [hsame]
  · rw [hvested]
    rfl

end Final

variable {E : Type} {x : Externals E} {w w' : World E}

theorem Phased.final {a : Action E} (h : Phased w) (hminted : ¬ w.storage.Unminted)
    (hexec : w.exec x a = .ok w') : Final w.storage w'.storage := by
  cases a with
  | execute info msg =>
      rcases h.vests hminted hexec with ⟨-, hconf, -⟩ | ⟨-, msgs, entries, poolInfo, hvests, -⟩
      · refine ⟨hconf.state, fun u => Or.inl ?_⟩
        rw [Storage.user, hconf.users]
        rfl
      · refine ⟨by rw [hvests.storage], fun u => ?_⟩
        unfold Storage.user
        rcases hvests.mayLoad u with ⟨-, user, hstored, -, hopen, hmarked⟩ | ⟨-, hsame⟩
        · right
          rw [hstored, hmarked]
          exact ⟨hopen, rfl⟩
        · left
          rw [hsame]
  | _ =>
      obtain rfl := Except.ok.inj hexec
      exact .refl _

end NeutronTge.Auction
