import Mathlib.Data.List.Defs
import NeutronTge.CosmWasm.Message
import NeutronTge.CosmWasm.Storage

/-!
# NeutronTge.MerkleAirdrop.Contract

The `cw20-merkle-airdrop` contract. Who is in the tree of the airdrop claims his cNTRN with a
proof, once, until the end of the vesting; after it the reserve withdraws what is left. The
owner may pause the contract while claims are possible.

The packages `sha2` and `hex` are parameters of the contract (`Codec`).
-/

namespace NeutronTge.MerkleAirdrop

open CosmWasm

/-! ### Digests -/

/-- Data that is hashed. -/
abbrev Bytes := List UInt8

/-- `[u8; 32]`. -/
structure Digest where
  bytes : Bytes
  length_eq : bytes.length = 32
  deriving Repr, DecidableEq

/-- The errors of the `hex` package. -/
inductive FromHexError
  | invalidHexCharacter (c : Char) (index : Nat)
  | oddLength
  | invalidStringLength
  deriving Repr, DecidableEq

/-- The functions of `sha2` and `hex` that the contract calls. -/
structure Codec where
  sha256 : Bytes → Digest
  /-- `hex::decode_to_slice` into 32 bytes. -/
  decodeToSlice : String → Except FromHexError Digest

/-- `hashes.sort_unstable()` and `hashes.concat()` of two digests. -/
def sortedConcat (a b : Digest) : Bytes :=
  if b.bytes < a.bytes then b.bytes ++ a.bytes else a.bytes ++ b.bytes

/-! ### Storage and messages -/

/-- The configuration of the airdrop. -/
structure Config where
  owner : Addr
  creditsAddress : Addr
  reserveAddress : Addr
  deriving Repr, DecidableEq

/-- The storage of the contract. -/
structure Storage where
  config : Config
  merkleRoot : String
  airdropStart : Nat
  vestingStart : Nat
  vestingDuration : Nat
  hrp : Option String
  amount : Nat
  amountClaimed : Nat
  claim : Map Addr Bool
  paused : Bool

/-- The configuration, the root and the periods that `instantiate` gets. -/
structure InstantiateMsg where
  creditsAddress : Addr
  reserveAddress : Addr
  merkleRoot : String
  airdropStart : Nat
  vestingStart : Nat
  vestingDurationSeconds : Nat
  totalAmount : Option Nat
  hrp : Option String
  deriving Repr, DecidableEq

/-- The messages of the contract. -/
inductive ExecuteMsg
  | claim (amount : Nat) (proof : List String)
  | withdrawAll
  | pause
  | resume
  | updateReserve (address : Addr)
  deriving Repr, DecidableEq

/-- The errors of the contract. -/
inductive ContractError
  | std (e : StdError)
  | hex (e : FromHexError)
  | unauthorized
  | claimed
  | verificationFailed
  | expired (expiration : Nat)
  | withdrawAllUnavailable (availableAt : Nat)
  | notBegun (start : Nat)
  | paused
  | notPaused
  | vestingBeforeAirdrop (airdropStart vestingStart : Nat)
  deriving Repr, DecidableEq

/-- The messages the contract sends. -/
inductive CosmosMsg
  | transfer (contractAddr recipient : Addr) (amount : Nat)
  | addVesting (contractAddr address : Addr) (amount startTime duration : Nat)
  | burn (contractAddr : Addr) (amount : Nat)
  | bankSend (toAddress : Addr) (coin : Coin)
  deriving Repr, DecidableEq

/-- `NEUTRON_DENOM`. -/
def neutronDenom : String := "untrn"

/-! ### Handlers -/

section Handlers

variable (c : Codec)

/-- The storage `instantiate` writes for a message it accepts. -/
def InstantiateMsg.storage (msg : InstantiateMsg) (info : MessageInfo) : Storage where
  config := ⟨info.sender, msg.creditsAddress, msg.reserveAddress⟩
  merkleRoot := msg.merkleRoot
  airdropStart := msg.airdropStart
  vestingStart := msg.vestingStart
  vestingDuration := msg.vestingDurationSeconds
  hrp := msg.hrp
  amount := msg.totalAmount.getD 0
  amountClaimed := 0
  claim := ∅
  paused := false

/-- `instantiate`. -/
def instantiate (info : MessageInfo) (msg : InstantiateMsg) : Except ContractError Storage := do
  let _ ← (c.decodeToSlice msg.merkleRoot).mapError .hex
  rejectIf (msg.vestingStart < msg.airdropStart)
    (.vestingBeforeAirdrop msg.airdropStart msg.vestingStart)
  .ok (msg.storage info)

/-- The `expiration` of the handlers. -/
def expiration (s : Storage) : Except ContractError Nat :=
  (Uint.add 64 s.vestingStart s.vestingDuration).mapError .std

/-- The string that stands for an account in the tree. -/
def userInput (proofAddr : Addr) (amount : Nat) : Bytes :=
  (proofAddr ++ toString amount).toUTF8.data.toList

/-- The `try_fold` of `execute_claim`. -/
def foldProof (hash : Digest) (proof : List String) : Except ContractError Digest :=
  proof.foldlM (fun hash p => do
    let proofBuf ← (c.decodeToSlice p).mapError .hex
    .ok (c.sha256 (sortedConcat hash proofBuf))) hash

/-- The part of `execute_claim` that checks the proof against the root. -/
def verifyProof (s : Storage) (proofAddr : Addr) (amount : Nat) (proof : List String) :
    Except ContractError Unit := do
  let hash ← foldProof c (c.sha256 (userInput proofAddr amount)) proof
  let rootBuf ← (c.decodeToSlice s.merkleRoot).mapError .hex
  rejectIf (rootBuf ≠ hash) .verificationFailed

/-- `execute_claim`. -/
def executeClaim (s : Storage) (env : Env) (info : MessageInfo) (amount : Nat)
    (proof : List String) : Except ContractError (Storage × List CosmosMsg) := do
  rejectIf (env.time < s.airdropStart) (.notBegun s.airdropStart)
  let expiration ← expiration s
  rejectIf (expiration < env.time) (.expired expiration)
  rejectIf (s.paused = true) .paused
  rejectIf (s.claim.has info.sender = true) .claimed
  verifyProof c s info.sender amount proof
  let amountClaimed ← (Uint.add 128 s.amountClaimed amount).mapError .std
  .ok ({ s with claim := s.claim.save info.sender true, amountClaimed := amountClaimed },
    [.transfer s.config.creditsAddress info.sender amount,
      .addVesting s.config.creditsAddress info.sender amount s.vestingStart s.vestingDuration])

/-- `execute_withdraw_all`: `balance` answers the query for the contract's cNTRN. -/
def executeWithdrawAll (s : Storage) (env : Env) (info : MessageInfo)
    (balance : Addr → Addr → Except StdError Nat) :
    Except ContractError (Storage × List CosmosMsg) := do
  rejectIf (info.sender ≠ s.config.reserveAddress) .unauthorized
  let expiration ← expiration s
  rejectIf (env.time ≤ expiration) (.withdrawAllUnavailable expiration)
  rejectIf (s.paused = true) .paused
  let amountToWithdraw ← (balance s.config.creditsAddress env.contract).mapError .std
  .ok (s, [.burn s.config.creditsAddress amountToWithdraw,
    .bankSend s.config.reserveAddress ⟨neutronDenom, amountToWithdraw⟩])

/-- `execute_update_reserve`. -/
def executeUpdateReserve (s : Storage) (info : MessageInfo) (address : Addr) :
    Except ContractError (Storage × List CosmosMsg) := do
  rejectIf (s.config.owner ≠ info.sender ∧ s.config.reserveAddress ≠ info.sender) .unauthorized
  .ok ({ s with config := { s.config with reserveAddress := address } }, [])

/-- The checks `execute_pause` and `execute_resume` begin with. -/
def onlyOwnerDuring (s : Storage) (env : Env) (info : MessageInfo) :
    Except ContractError Unit := do
  rejectIf (info.sender ≠ s.config.owner) .unauthorized
  rejectIf (env.time < s.airdropStart) (.notBegun s.airdropStart)
  let expiration ← expiration s
  rejectIf (expiration < env.time) (.expired expiration)

/-- `execute_pause`. -/
def executePause (s : Storage) (env : Env) (info : MessageInfo) :
    Except ContractError (Storage × List CosmosMsg) := do
  onlyOwnerDuring s env info
  .ok ({ s with paused := true }, [])

/-- `execute_resume`. -/
def executeResume (s : Storage) (env : Env) (info : MessageInfo) :
    Except ContractError (Storage × List CosmosMsg) := do
  onlyOwnerDuring s env info
  rejectIf (s.paused = false) .notPaused
  .ok ({ s with paused := false }, [])

/-- `execute`. -/
def execute (balance : Addr → Addr → Except StdError Nat) (s : Storage) (env : Env)
    (info : MessageInfo) : ExecuteMsg → Except ContractError (Storage × List CosmosMsg)
  | .claim amount proof => executeClaim c s env info amount proof
  | .withdrawAll => executeWithdrawAll s env info balance
  | .pause => executePause s env info
  | .resume => executeResume s env info
  | .updateReserve address => executeUpdateReserve s info address

end Handlers

/-! ### What the messages do -/

section Effects

variable {c : Codec} {s s' : Storage} {env : Env} {info : MessageInfo}
  {balance : Addr → Addr → Except StdError Nat} {msgs : List CosmosMsg}

/-- Claims are possible at this time. -/
structure Storage.Open (s : Storage) (time : Nat) : Prop where
  begun : s.airdropStart ≤ time
  fits : s.vestingStart + s.vestingDuration < 2 ^ 64
  running : time ≤ s.vestingStart + s.vestingDuration

/-- A claim that the contract accepts. -/
structure Claims (c : Codec) (s s' : Storage) (env : Env) (claimant : Addr) (amount : Nat)
    (proof : List String) (msgs : List CosmosMsg) : Prop where
  opened : s.Open env.time
  unpaused : s.paused = false
  unclaimed : s.claim.mayLoad claimant = none
  verified : verifyProof c s claimant amount proof = .ok ()
  fits : s.amountClaimed + amount < 2 ^ 128
  storage : s' = { s with
    claim := s.claim.save claimant true
    amountClaimed := s.amountClaimed + amount }
  messages : msgs = [.transfer s.config.creditsAddress claimant amount,
    .addVesting s.config.creditsAddress claimant amount s.vestingStart s.vestingDuration]

/-- A withdrawal that the contract accepts. -/
structure WithdrawsAll (s s' : Storage) (env : Env) (info : MessageInfo)
    (balance : Addr → Addr → Except StdError Nat) (amount : Nat) (msgs : List CosmosMsg) :
    Prop where
  sender : info.sender = s.config.reserveAddress
  fits : s.vestingStart + s.vestingDuration < 2 ^ 64
  ended : s.vestingStart + s.vestingDuration < env.time
  unpaused : s.paused = false
  amount_eq : balance s.config.creditsAddress env.contract = .ok amount
  storage : s' = s
  messages : msgs = [.burn s.config.creditsAddress amount,
    .bankSend s.config.reserveAddress ⟨neutronDenom, amount⟩]

theorem expiration_eq_ok {t : Nat} : expiration s = .ok t ↔
    s.vestingStart + s.vestingDuration < 2 ^ 64 ∧ t = s.vestingStart + s.vestingDuration := by
  unfold expiration
  rw [mapError_eq_ok, Uint.add_eq_ok]

/-- A claim is accepted exactly when it is in time, the first of its sender and proved. -/
theorem executeClaim_eq_ok {amount : Nat} {proof : List String} :
    executeClaim c s env info amount proof = .ok (s', msgs) ↔
      Claims c s s' env info.sender amount proof msgs := by
  unfold executeClaim
  simp only [bind_eq_ok, rejectIf_eq_ok, exists_const, expiration_eq_ok, mapError_eq_ok,
    Uint.add_eq_ok, Except.ok.injEq, Prod.mk.injEq]
  constructor
  · rintro ⟨hbegun, _, ⟨hfits, rfl⟩, hrunning, hunpaused, hunclaimed, _, hverified, _,
      ⟨hsum, rfl⟩, rfl, rfl⟩
    exact ⟨⟨Nat.le_of_not_lt hbegun, hfits, Nat.le_of_not_lt hrunning⟩, by simpa using hunpaused,
      by simpa [Map.has] using hunclaimed, hverified, hsum, rfl, rfl⟩
  · rintro ⟨⟨hbegun, hfits, hrunning⟩, hunpaused, hunclaimed, hverified, hsum, rfl, rfl⟩
    exact ⟨Nat.not_lt_of_le hbegun, _, ⟨hfits, rfl⟩, Nat.not_lt_of_le hrunning,
      by simp [hunpaused], by simp [Map.has, hunclaimed], (), hverified, _, ⟨hsum, rfl⟩, rfl, rfl⟩

theorem executeWithdrawAll_eq_ok :
    executeWithdrawAll s env info balance = .ok (s', msgs) ↔
      ∃ amount, WithdrawsAll s s' env info balance amount msgs := by
  unfold executeWithdrawAll
  simp only [bind_eq_ok, rejectIf_eq_ok, exists_const, not_not, expiration_eq_ok, mapError_eq_ok,
    Except.ok.injEq, Prod.mk.injEq]
  constructor
  · rintro ⟨hsender, _, ⟨hfits, rfl⟩, hover, hunpaused, amount, hamount, rfl, rfl⟩
    exact ⟨amount, hsender, hfits, Nat.lt_of_not_le hover, by simpa using hunpaused, hamount, rfl,
      rfl⟩
  · rintro ⟨amount, hsender, hfits, hover, hunpaused, hamount, rfl, rfl⟩
    exact ⟨hsender, _, ⟨hfits, rfl⟩, Nat.not_le_of_lt hover, by simp [hunpaused], amount, hamount,
      rfl, rfl⟩

theorem onlyOwnerDuring_ok {u : Unit} (h : onlyOwnerDuring s env info = .ok u) :
    info.sender = s.config.owner ∧ s.Open env.time := by
  unfold onlyOwnerDuring at h
  simp only [bind_eq_ok, rejectIf_eq_ok, exists_const, not_not, expiration_eq_ok] at h
  obtain ⟨hsender, hbegun, _, ⟨hfits, rfl⟩, hrunning⟩ := h
  exact ⟨hsender, Nat.le_of_not_lt hbegun, hfits, Nat.le_of_not_lt hrunning⟩

theorem instantiate_ok {msg : InstantiateMsg} (h : instantiate c info msg = .ok s) :
    s = msg.storage info := by
  unfold instantiate at h
  simp only [bind_eq_ok, rejectIf_eq_ok, exists_const, Except.ok.injEq] at h
  obtain ⟨_, -, -, hstorage⟩ := h
  exact hstorage.symm

/-- What each message does. -/
inductive Effect (c : Codec) (balance : Addr → Addr → Except StdError Nat) (s s' : Storage)
    (env : Env) (info : MessageInfo) (msgs : List CosmosMsg) : ExecuteMsg → Prop
  | claim (amount : Nat) (proof : List String)
      (h : Claims c s s' env info.sender amount proof msgs) :
      Effect c balance s s' env info msgs (.claim amount proof)
  | withdrawAll (amount : Nat) (h : WithdrawsAll s s' env info balance amount msgs) :
      Effect c balance s s' env info msgs .withdrawAll
  | pause (howner : info.sender = s.config.owner) (hopen : s.Open env.time)
      (hstorage : s' = { s with paused := true }) (hmsgs : msgs = []) :
      Effect c balance s s' env info msgs .pause
  | resume (howner : info.sender = s.config.owner) (hopen : s.Open env.time)
      (hstorage : s' = { s with paused := false }) (hmsgs : msgs = []) :
      Effect c balance s s' env info msgs .resume
  | updateReserve (address : Addr)
      (hsender : info.sender = s.config.owner ∨ info.sender = s.config.reserveAddress)
      (hstorage : s' = { s with config := { s.config with reserveAddress := address } })
      (hmsgs : msgs = []) : Effect c balance s s' env info msgs (.updateReserve address)

theorem execute_effect {msg : ExecuteMsg}
    (h : execute c balance s env info msg = .ok (s', msgs)) :
    Effect c balance s s' env info msgs msg := by
  cases msg with
  | claim amount proof => exact .claim amount proof (executeClaim_eq_ok.mp h)
  | withdrawAll =>
      obtain ⟨amount, hwithdraws⟩ := executeWithdrawAll_eq_ok.mp h
      exact .withdrawAll amount hwithdraws
  | pause =>
      simp only [execute, executePause, bind_eq_ok, Except.ok.injEq, Prod.mk.injEq] at h
      obtain ⟨_, hduring, rfl, rfl⟩ := h
      obtain ⟨howner, hopen⟩ := onlyOwnerDuring_ok hduring
      exact .pause howner hopen rfl rfl
  | resume =>
      simp only [execute, executeResume, bind_eq_ok, rejectIf_eq_ok, exists_const,
        Except.ok.injEq, Prod.mk.injEq] at h
      obtain ⟨_, hduring, -, rfl, rfl⟩ := h
      obtain ⟨howner, hopen⟩ := onlyOwnerDuring_ok hduring
      exact .resume howner hopen rfl rfl
  | updateReserve address =>
      simp only [execute, executeUpdateReserve, bind_eq_ok, rejectIf_eq_ok, exists_const,
        Except.ok.injEq, Prod.mk.injEq] at h
      obtain ⟨hsender, rfl, rfl⟩ := h
      refine .updateReserve address ?_ rfl rfl
      by_contra hneither
      obtain ⟨howner, hreserve⟩ := not_or.mp hneither
      exact hsender ⟨Ne.symm howner, Ne.symm hreserve⟩

/-- A message other than `Claim` keeps what the contract knows of the claims, and pays nobody. -/
structure Quiet (s s' : Storage) (msgs : List CosmosMsg) : Prop where
  claim : s'.claim = s.claim
  amountClaimed : s'.amountClaimed = s.amountClaimed
  merkleRoot : s'.merkleRoot = s.merkleRoot
  noTransfer : ∀ m ∈ msgs, ∀ addr recipient amount, m ≠ .transfer addr recipient amount

/-- A message is a `Claim` or keeps the claims. -/
theorem Effect.claims_or_quiet {msg : ExecuteMsg} (h : Effect c balance s s' env info msgs msg) :
    (∃ amount proof, msg = .claim amount proof ∧
      Claims c s s' env info.sender amount proof msgs) ∨ Quiet s s' msgs := by
  -- `Pause`, `Resume` and `UpdateReserve` send no message
  have hsilent : ∀ m ∈ ([] : List CosmosMsg), ∀ addr recipient amount,
      m ≠ .transfer addr recipient amount := by simp
  cases h with
  | claim amount proof hclaims => exact Or.inl ⟨amount, proof, rfl, hclaims⟩
  | withdrawAll amount hwithdraws =>
      right
      rw [hwithdraws.storage, hwithdraws.messages]
      refine ⟨rfl, rfl, rfl, ?_⟩
      simp
  | pause _ _ hstorage hmsgs =>
      right
      rw [hstorage, hmsgs]
      exact ⟨rfl, rfl, rfl, hsilent⟩
  | resume _ _ hstorage hmsgs =>
      right
      rw [hstorage, hmsgs]
      exact ⟨rfl, rfl, rfl, hsilent⟩
  | updateReserve _ _ hstorage hmsgs =>
      right
      rw [hstorage, hmsgs]
      exact ⟨rfl, rfl, rfl, hsilent⟩

end Effects

end NeutronTge.MerkleAirdrop
