import NeutronTge.MerkleAirdrop.Chain
import NeutronTge.MerkleAirdrop.Codec

/-!
# NeutronTge.MerkleAirdrop.Recovery

What is left of the airdrop when its time is over. Claims and `WithdrawAll` exclude each other,
and the reserve withdraws everything, unless the contract is paused: `WithdrawAll` refuses a
paused contract, and `Resume` refuses one that has expired, so a pause that outlives the airdrop
is for good.
-/

namespace NeutronTge.MerkleAirdrop

open CosmWasm

variable {cw20 : Credits.Cw20Base} {c : Codec} {w w' : World}

/-! ### What a run keeps -/

/-- The terms `instantiate` sets. -/
structure Storage.SameTerms (s s' : Storage) : Prop where
  owner : s'.config.owner = s.config.owner
  creditsAddress : s'.config.creditsAddress = s.config.creditsAddress
  merkleRoot : s'.merkleRoot = s.merkleRoot
  airdropStart : s'.airdropStart = s.airdropStart
  vestingStart : s'.vestingStart = s.vestingStart
  vestingDuration : s'.vestingDuration = s.vestingDuration

theorem Storage.SameTerms.refl (s : Storage) : s.SameTerms s := ⟨rfl, rfl, rfl, rfl, rfl, rfl⟩

theorem Storage.SameTerms.trans {s t u : Storage} (h : s.SameTerms t) (h' : t.SameTerms u) :
    s.SameTerms u where
  owner := h'.owner.trans h.owner
  creditsAddress := h'.creditsAddress.trans h.creditsAddress
  merkleRoot := h'.merkleRoot.trans h.merkleRoot
  airdropStart := h'.airdropStart.trans h.airdropStart
  vestingStart := h'.vestingStart.trans h.vestingStart
  vestingDuration := h'.vestingDuration.trans h.vestingDuration

/-- The time of the airdrop is over. -/
def World.Over (w : World) : Prop :=
  w.storage.vestingStart + w.storage.vestingDuration < w.credits.env.time

/-- A later world of the same airdrop. -/
structure Onward (w w' : World) : Prop where
  terms : w.storage.SameTerms w'.storage
  contract : w'.contract = w.contract
  credits : w'.credits.env.contract = w.credits.env.contract
  time : w.credits.env.time ≤ w'.credits.env.time
  /-- Nobody resumes a contract whose time is over. -/
  stuck : w.Over → w.storage.paused = true → w'.storage.paused = true
  backed : Credits.FullyBacked w.credits → Credits.FullyBacked w'.credits

namespace Onward

theorem refl (w : World) : Onward w w :=
  ⟨.refl _, rfl, rfl, Nat.le_refl _, fun _ => id, id⟩

theorem stays_over (h : Onward w w') (hover : w.Over) : w'.Over := by
  unfold World.Over at *
  rw [h.terms.vestingStart, h.terms.vestingDuration]
  exact hover.trans_le h.time

theorem trans {u v w : World} (h : Onward u v) (h' : Onward v w) : Onward u w where
  terms := h.terms.trans h'.terms
  contract := h'.contract.trans h.contract
  credits := h'.credits.trans h.credits
  time := h.time.trans h'.time
  stuck hover hpaused := h'.stuck (h.stays_over hover) (h.stuck hover hpaused)
  backed := h'.backed ∘ h.backed

end Onward

/-- The credits contract goes on. -/
theorem credits_exec_env (hcw20 : cw20.Lawful) {v v' : Credits.World} {action : Credits.Action}
    (h : v.exec cw20 action = .ok v') :
    v'.env.contract = v.env.contract ∧ v.env.time ≤ v'.env.time := by
  cases action with
  | advance seconds blocks =>
      obtain rfl := Except.ok.inj h
      exact ⟨rfl, Nat.le_add_right _ _⟩
  | donate amount =>
      obtain rfl := Except.ok.inj h
      exact ⟨rfl, Nat.le_refl _⟩
  | execute info msg =>
      obtain ⟨_, -, henv, -⟩ := Credits.World.execute_ok hcw20 h
      rw [henv]
      exact ⟨rfl, Nat.le_refl _⟩

theorem settle_onward (hcw20 : cw20.Lawful) {action : Credits.Action} {credits : Credits.World}
    (h : w.credits.exec cw20 action = .ok credits) : Onward w (w.settle credits) := by
  obtain ⟨hcontract, htime⟩ := credits_exec_env hcw20 h
  exact ⟨.refl _, rfl, hcontract, htime, fun _ => id, fun hbacked => hbacked.exec hcw20 h⟩

theorem call_onward (hcw20 : cw20.Lawful) {contractAddr : Addr} {msg : Credits.ExecuteMsg}
    (h : w.call cw20 contractAddr msg = .ok w') : Onward w w' := by
  obtain ⟨-, credits, hcredits, rfl⟩ := call_ok h
  exact settle_onward hcw20 hcredits

theorem dispatch_onward (hcw20 : cw20.Lawful) {msg : CosmosMsg}
    (h : w.dispatch cw20 msg = .ok w') : Onward w w' := by
  cases msg with
  | transfer contractAddr recipient amount =>
      simp only [World.dispatch, bind_eq_ok, Except.ok.injEq] at h
      obtain ⟨v, hcall, rfl⟩ := h
      obtain ⟨hterms, hcontract, hcredits, htime, hstuck, hbacked⟩ := call_onward hcw20 hcall
      exact ⟨hterms, hcontract, hcredits, htime, hstuck, hbacked⟩
  | addVesting contractAddr address amount startTime duration => exact call_onward hcw20 h
  | burn contractAddr amount => exact call_onward hcw20 h
  | bankSend toAddress coin =>
      simp only [World.dispatch, bind_eq_ok, rejectIf_eq_ok, exists_const, mapError_eq_ok,
        Except.ok.injEq] at h
      obtain ⟨-, rest, -, rfl⟩ := h
      refine ⟨.refl _, rfl, ?_, ?_, fun _ => id, ?_⟩
      · dsimp only
        split_ifs <;> rfl
      · dsimp only
        split_ifs <;> exact Nat.le_refl _
      · intro hbacked
        dsimp only
        split_ifs
        · exact ⟨hbacked.backed.trans (Nat.le_add_right _ _), hbacked.supply, hbacked.cliff,
            hbacked.vested⟩
        · exact hbacked

theorem exec_onward (hcw20 : cw20.Lawful) {a : Action} (h : w.exec cw20 c a = .ok w') :
    Onward w w' := by
  cases a with
  | donate amount =>
      obtain rfl := Except.ok.inj h
      exact ⟨.refl _, rfl, rfl, Nat.le_refl _, fun _ => id, id⟩
  | credits action =>
      simp only [World.exec, bind_eq_ok, rejectIf_eq_ok, exists_const, mapError_eq_ok,
        Except.ok.injEq] at h
      obtain ⟨-, credits, hcredits, rfl⟩ := h
      exact settle_onward hcw20 hcredits
  | execute info msg =>
      obtain ⟨-, s, msgs, heffect, hrun⟩ := execute_ok h
      have hrest := foldlM_relation (R := Onward) Onward.refl (fun _ _ _ => Onward.trans)
        (fun _ _ _ _ => dispatch_onward hcw20) hrun
      refine Onward.trans ?_ hrest
      cases heffect with
      | claim amount proof hclaims =>
          rw [hclaims.storage]
          exact ⟨⟨rfl, rfl, rfl, rfl, rfl, rfl⟩, rfl, rfl, Nat.le_refl _, fun _ => id, id⟩
      | withdrawAll amount hwithdraws =>
          rw [hwithdraws.storage]
          exact ⟨.refl _, rfl, rfl, Nat.le_refl _, fun _ => id, id⟩
      | pause howner hopen hstorage =>
          rw [hstorage]
          exact ⟨⟨rfl, rfl, rfl, rfl, rfl, rfl⟩, rfl, rfl, Nat.le_refl _, fun _ _ => rfl, id⟩
      | resume howner hopen hstorage =>
          rw [hstorage]
          refine ⟨⟨rfl, rfl, rfl, rfl, rfl, rfl⟩, rfl, rfl, Nat.le_refl _, ?_, id⟩
          -- `Resume` is not possible when the time is over
          exact fun hover => absurd hopen.running (Nat.not_le_of_lt hover)
      | updateReserve address _ hstorage =>
          rw [hstorage]
          exact ⟨⟨rfl, rfl, rfl, rfl, rfl, rfl⟩, rfl, rfl, Nat.le_refl _, fun _ => id, id⟩

theorem run_onward (hcw20 : cw20.Lawful) (as : List Action) :
    Onward w (run (World.exec cw20 c) w as) :=
  @run_invariant _ _ _ (World.exec cw20 c) (Onward w)
    (fun _ _ _ ht h => ht.trans (exec_onward hcw20 h)) as w (.refl w)

/-! ### Recovering what is left -/

/-- A message of the owner or of the reserve. -/
def FromOwnerOrReserve (w : World) : Action → Prop
  | .execute info _ =>
      info.sender = w.storage.config.owner ∨ info.sender = w.storage.config.reserveAddress
  | _ => False

/-- The owner and the reserve can bring about a `WithdrawAll`. -/
def Recoverable (cw20 : Credits.Cw20Base) (c : Codec) (w : World) : Prop :=
  ∃ (as : List Action) (info : MessageInfo) (w' : World),
    Along (World.exec cw20 c) FromOwnerOrReserve w as ∧
      (run (World.exec cw20 c) w as).exec cw20 c (.execute info .withdrawAll) = .ok w'

/-- `WithdrawAll` is accepted after the end only, and not while the contract is paused. -/
theorem withdrawAll_ok {info : MessageInfo}
    (h : w.exec cw20 c (.execute info .withdrawAll) = .ok w') :
    w.Over ∧ w.storage.paused = false := by
  obtain ⟨-, s, msgs, heffect, -⟩ := execute_ok h
  cases heffect with
  | withdrawAll amount hwithdraws => exact ⟨hwithdraws.ended, hwithdraws.unpaused⟩

theorem claim_open {info : MessageInfo} {amount : Nat} {proof : List String}
    (h : w.exec cw20 c (.execute info (.claim amount proof)) = .ok w') :
    w.storage.Open w.credits.env.time := by
  obtain ⟨-, s, msgs, heffect, -⟩ := execute_ok h
  cases heffect with
  | claim _ _ hclaims => exact hclaims.opened

/-- Burning the cNTRN of the airdrop contract brings it as much untrn. -/
theorem burn_isOk (hcw20 : cw20.Lawful) (hburnable : cw20.Burnable)
    (hbacked : Credits.FullyBacked w.credits) (hother : w.contract ≠ w.credits.env.contract)
    (hairdrop : w.credits.storage.config.airdropAddress = some w.contract) {amount : Nat}
    (hpos : 0 < amount) (hle : amount ≤ w.credits.storage.token.balanceOf w.contract) :
    ∃ w', w.dispatch cw20 (.burn w.credits.env.contract amount) = .ok w' ∧
      w'.contract = w.contract ∧ w'.untrn = w.untrn + amount := by
  obtain ⟨credits, hcredits⟩ := @Credits.exec_burn_isOk cw20 w.credits hburnable hbacked
    ⟨w.contract, []⟩ amount hpos hle hother hairdrop
  refine ⟨w.settle credits, ?_, rfl, ?_⟩
  · simp only [World.dispatch, World.call, bind_eq_ok, rejectIf_eq_ok, exists_const, not_not,
      Except.ok.injEq]
    exact ⟨trivial, credits, hcredits, rfl⟩
  · obtain ⟨payments, heffect, -, htrace, -⟩ := Credits.World.execute_ok hcw20 hcredits
    cases heffect with
    | burn =>
        have hpaid := Credits.paid_single htrace w.contract
        rw [if_pos rfl] at hpaid
        simp only [World.settle, hpaid]
        omega

/-- The reserve can withdraw everything when the time is over and the contract is not paused. -/
theorem withdrawAll_isOk (hcw20 : cw20.Lawful) (hburnable : cw20.Burnable)
    (hbacked : Credits.FullyBacked w.credits) (hother : w.contract ≠ w.credits.env.contract)
    (hcredits : w.storage.config.creditsAddress = w.credits.env.contract)
    (hairdrop : w.credits.storage.config.airdropAddress = some w.contract)
    (hover : w.Over) (htime : w.credits.env.time < 2 ^ 64) (hunpaused : w.storage.paused = false)
    (hpos : 0 < w.credits.storage.token.balanceOf w.contract) {info : MessageInfo}
    (hreserve : info.sender = w.storage.config.reserveAddress)
    (hsender : info.sender ≠ w.contract) :
    ∃ w', w.exec cw20 c (.execute info .withdrawAll) = .ok w' := by
  generalize hamount : w.credits.storage.token.balanceOf w.contract = amount at hpos
  let w₀ : World := { w with untrn := w.untrn + Credits.untrnIn info.funds }
  obtain ⟨w₁, hburn, -, huntrn⟩ := @burn_isOk cw20 w₀ hcw20 hburnable hbacked hother hairdrop
    amount hpos (Nat.le_of_eq hamount.symm)
  have hhandler : MerkleAirdrop.execute c w.balance w.storage w.env info .withdrawAll =
      .ok (w.storage, [.burn w.storage.config.creditsAddress amount,
        .bankSend w.storage.config.reserveAddress ⟨neutronDenom, amount⟩]) := by
    refine executeWithdrawAll_eq_ok.mpr ⟨amount, hreserve, hover.trans htime, hover, hunpaused,
      ?_, rfl, rfl⟩
    simp only [World.balance, hcredits, if_true]
    exact congrArg Except.ok hamount
  -- what was burned is there to be sent
  have hsend : ∃ w', w₁.dispatch cw20 (.bankSend w.storage.config.reserveAddress
      ⟨neutronDenom, amount⟩) = .ok w' := by
    simp only [World.dispatch, bind_eq_ok, rejectIf_eq_ok, exists_const, mapError_eq_ok,
      Uint.checkedSub_eq_ok]
    exact ⟨_, hpos.ne', _, ⟨by omega, rfl⟩, rfl⟩
  obtain ⟨w', hsend⟩ := hsend
  refine ⟨w', ?_⟩
  show w.execute cw20 c info .withdrawAll = .ok w'
  simp only [World.execute, bind_eq_ok, rejectIf_eq_ok, exists_const, mapError_eq_ok, hhandler,
    Except.ok.injEq]
  refine ⟨hsender, _, rfl, ?_⟩
  dsimp only
  rw [hcredits]
  exact foldlM_cons_ok.mpr ⟨w₁, hburn, foldlM_singleton_ok.mpr hsend⟩

/-- A pause that outlives the airdrop is for good. -/
theorem Recoverable.unpaused (hcw20 : cw20.Lawful) (h : Recoverable cw20 c w) (hover : w.Over) :
    w.storage.paused = false := by
  obtain ⟨as, info, w', -, hexec⟩ := h
  have honward : Onward w (run (World.exec cw20 c) w as) := run_onward hcw20 as
  obtain ⟨-, hunpaused⟩ := withdrawAll_ok hexec
  by_contra hpaused
  rw [honward.stuck hover (by simpa using hpaused)] at hunpaused
  cases hunpaused

/-- What holds in every state of a run. -/
structure Rooted (w : World) : Prop where
  owner : w.storage.config.owner ≠ w.contract
  wired : w.storage.config.creditsAddress = w.credits.env.contract
  other : w.contract ≠ w.credits.env.contract
  backed : Credits.FullyBacked w.credits

theorem Rooted.start (h : Started c w) : Rooted w := by
  obtain ⟨info, msg, hinit, hsender⟩ := h.storage
  refine ⟨?_, h.wired, h.other, .start h.credits⟩
  rw [instantiate_ok hinit]
  exact hsender

theorem Rooted.run (hcw20 : cw20.Lawful) (h : Rooted w) (as : List Action) :
    Rooted (run (World.exec cw20 c) w as) := by
  have honward : Onward w (CosmWasm.run (World.exec cw20 c) w as) := run_onward hcw20 as
  constructor
  · rw [honward.terms.owner, honward.contract]
    exact h.owner
  · rw [honward.terms.creditsAddress, honward.credits]
    exact h.wired
  · rw [honward.contract, honward.credits]
    exact h.other
  · exact honward.backed h.backed

/-- The owner makes himself the reserve and withdraws. -/
theorem Rooted.recoverable (hcw20 : cw20.Lawful) (hburnable : cw20.Burnable) (h : Rooted w)
    (hover : w.Over) (htime : w.credits.env.time < 2 ^ 64)
    (hairdrop : w.credits.storage.config.airdropAddress = some w.contract)
    (hpos : 0 < w.credits.storage.token.balanceOf w.contract)
    (hunpaused : w.storage.paused = false) : Recoverable cw20 c w := by
  let owner := w.storage.config.owner
  let w₁ : World := { w with
    storage := { w.storage with config := { w.storage.config with reserveAddress := owner } } }
  have hupdate : w.exec cw20 c (.execute ⟨owner, []⟩ (.updateReserve owner)) = .ok w₁ := by
    simp only [World.exec, World.execute, MerkleAirdrop.execute, executeUpdateReserve, bind_eq_ok,
      rejectIf_eq_ok, exists_const, mapError_eq_ok, Except.ok.injEq]
    refine ⟨h.owner, _, ⟨?_, rfl⟩, rfl⟩
    exact fun hneither => hneither.1 rfl
  obtain ⟨w', hwithdraw⟩ := @withdrawAll_isOk cw20 c w₁ hcw20 hburnable h.backed h.other h.wired
    hairdrop hover htime hunpaused hpos ⟨owner, []⟩ rfl h.owner
  refine ⟨[.execute ⟨owner, []⟩ (.updateReserve owner)], ⟨owner, []⟩, w', ⟨Or.inl rfl, trivial⟩, ?_⟩
  rw [run_cons, run_nil, commit_of_ok _ hupdate]
  exact hwithdraw

/-! ### Runs -/

/-- What is left of an airdrop in any state its runs reach. -/
structure Recovers (cw20 : Credits.Cw20Base) (c : Codec) (w₀ : World) : Prop where
  /-- After the end the owner and the reserve recover what is left exactly when the contract is
  not paused. -/
  recoverable : ∀ {as : List Action} {w : World}, run (World.exec cw20 c) w₀ as = w → w.Over →
    w.credits.env.time < 2 ^ 64 → w.credits.storage.config.airdropAddress = some w.contract →
    0 < w.credits.storage.token.balanceOf w.contract →
    (Recoverable cw20 c w ↔ w.storage.paused = false)
  /-- At no time are both a claim and `WithdrawAll` possible. -/
  apart : ∀ {as as' : List Action} {w w' v v' : World} {info info' : MessageInfo} {amount : Nat}
    {proof : List String}, run (World.exec cw20 c) w₀ as = w → run (World.exec cw20 c) w₀ as' = w' →
    w.credits.env.time = w'.credits.env.time →
    w.exec cw20 c (.execute info (.claim amount proof)) = .ok v →
    w'.exec cw20 c (.execute info' .withdrawAll) ≠ .ok v'

theorem recovers_of_run (hcw20 : cw20.Lawful) (hburnable : cw20.Burnable) {w₀ : World}
    (hstarted : Started c w₀) : Recovers cw20 c w₀ := by
  constructor
  · rintro as w rfl hover htime hairdrop hpos
    have hrooted := (Rooted.start hstarted).run (c := c) hcw20 as
    exact ⟨fun h => h.unpaused hcw20 hover,
      hrooted.recoverable hcw20 hburnable hover htime hairdrop hpos⟩
  · rintro as as' w w' v v' info info' amount proof rfl rfl htime hclaim hwithdraw
    have honward : Onward w₀ (run (World.exec cw20 c) w₀ as) := run_onward hcw20 as
    have honward' : Onward w₀ (run (World.exec cw20 c) w₀ as') := run_onward hcw20 as'
    have hopen := (claim_open hclaim).running
    obtain ⟨hover, -⟩ := withdrawAll_ok hwithdraw
    unfold World.Over at hover
    rw [honward'.terms.vestingStart, honward'.terms.vestingDuration] at hover
    rw [honward.terms.vestingStart, honward.terms.vestingDuration] at hopen
    omega

/-! ### A pause that outlives the airdrop -/

/-- An airdrop from 10 to 150, with the tree of the contract's own tests. -/
def sampleMsg : InstantiateMsg where
  creditsAddress := "credits"
  reserveAddress := "reserve"
  merkleRoot := "b45c1ea28b26adb13e412933c9e055b01fdf7585304b00cd8f1cb220aa6c5e88"
  airdropStart := 10
  vestingStart := 100
  vestingDurationSeconds := 50
  totalAmount := none
  hrp := none

/-- The airdrop right after `instantiate`. -/
def sampleStart : World where
  storage := sampleMsg.storage ⟨"owner", []⟩
  contract := "airdrop"
  untrn := 0
  credits := Credits.sampleStart
  paid := []

theorem sampleStart_started : Started codec sampleStart where
  storage := ⟨⟨"owner", []⟩, sampleMsg, by rfl, by decide⟩
  wired := rfl
  other := by decide
  credits := Credits.sampleStart_started
  paid := rfl

/-- The airdrop gets 1000 cNTRN. -/
def sampleFunding : List Action :=
  [.credits (.execute ⟨"dao", []⟩ (.updateConfig ⟨some "airdrop", some "lockdrop", some 20⟩)),
    .credits (.execute ⟨"dao", [⟨"untrn", 1000⟩]⟩ .mint)]

/-- An account of the tree. -/
def sampleAccount : Addr := "wasm1k9hwzxs889jpvd7env8z49gad3a3633vg350tq"

/-- The proof that it has 100 cNTRN. -/
def sampleProof : List String :=
  ["a714186eaedddde26b08b9afda38cf62fdf88d68e3aa0d5a4b55033487fe14a1",
    "fb57090a813128eeb953a4210dd64ee73d2632b8158231effe2f0a18b2d3b5dd",
    "c30992d264c74c58b636a31098c6c27a5fc08b3f61b7eafe2a33dcb445822343"]

/-- The only account of the tree claims. -/
def sampleClaim : Action := .execute ⟨sampleAccount, []⟩ (.claim 100 sampleProof)

theorem recovers_of_run_sample : Recovers Credits.cw20Base codec sampleStart :=
  recovers_of_run Credits.cw20Base_lawful Credits.cw20Base_burnable sampleStart_started

/-- The owner pauses the airdrop and lets it expire: nobody gets the cNTRN any more. -/
theorem paused_for_good :
    Started codec sampleStart ∧ ∃ w, run (World.exec Credits.cw20Base codec) sampleStart
        (sampleFunding ++ [.credits (.advance 20 1), .execute ⟨"owner", []⟩ .pause,
          .credits (.advance 200 10)]) = w ∧
      w.Over ∧ w.credits.storage.token.balanceOf w.contract = 1000 ∧
      w.credits.storage.config.airdropAddress = some w.contract ∧
      ¬ Recoverable Credits.cw20Base codec w := by
  refine ⟨sampleStart_started, _, rfl, ?_⟩
  have hover : World.Over (run (World.exec Credits.cw20Base codec) sampleStart
      (sampleFunding ++ [.credits (.advance 20 1), .execute ⟨"owner", []⟩ .pause,
        .credits (.advance 200 10)])) := by
    unfold World.Over
    decide +kernel
  refine ⟨hover, by decide +kernel, by decide +kernel, fun h => ?_⟩
  exact absurd (h.unpaused Credits.cw20Base_lawful hover) (by decide +kernel)

/-- Without the pause the reserve withdraws everything. -/
example :
    let w := run (World.exec Credits.cw20Base codec) sampleStart
      (sampleFunding ++ [.credits (.advance 200 10), .execute ⟨"reserve", []⟩ .withdrawAll])
    w.credits.storage.token.balanceOf w.contract = 0 ∧ w.untrn = 0 := by
  decide +kernel

end NeutronTge.MerkleAirdrop
