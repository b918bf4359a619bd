import NeutronTge.CosmWasm.Run
import NeutronTge.CosmWasm.Trace
import NeutronTge.Astroport.Asset

/-!
# NeutronTge.Astroport.Ownership

The two-step hand-over of a contract over a whole run. Several contracts have it, each as
three of its messages, so the module is about any contract with an owner and a proposal:
`HandsOver` says that the three messages do to them what the shared functions do, and that
nothing else touches them. Then the record of the three messages is a sequence of hand-overs
(`Proper`), and the owner is the one who took over last.
-/

namespace NeutronTge.Astroport

open CosmWasm

/-- A successful message about the ownership. -/
inductive OwnershipEvent
  | proposed (proposer newOwner : Addr) (expiresIn time : Nat)
  | dropped (sender : Addr)
  | claimed (newOwner : Addr) (time : Nat)
  deriving Repr, DecidableEq

/-- What a contract stores about its ownership. -/
structure Ownership where
  owner : Addr
  proposal : Option OwnershipProposal
  deriving Repr, DecidableEq

/-- What a message does to it at time `now`. -/
inductive Ownership.Step (now : Nat) (o : Ownership) : OwnershipEvent → Ownership → Prop
  | proposed (newOwner : Addr) (expiresIn : Nat) (hnew : newOwner ≠ o.owner)
      (httl : expiresIn ≤ maxProposalTtl) :
      Step now o (.proposed o.owner newOwner expiresIn now)
        ⟨o.owner, some ⟨newOwner, now + expiresIn⟩⟩
  | dropped : Step now o (.dropped o.owner) ⟨o.owner, none⟩
  | claimed (p : OwnershipProposal) (hproposal : o.proposal = some p) (hunexpired : now ≤ p.ttl) :
      Step now o (.claimed p.owner now) ⟨p.owner, none⟩

/-- What a step does to the ownership, at time `now`, that is an event about it or none. -/
def Ownership.Moves (now : Nat) (o : Ownership) (event : Option OwnershipEvent) (o' : Ownership) :
    Prop :=
  match event with
  | none => o' = o
  | some e => o.Step now e o'

/-! ### The shared functions -/

/-- The three messages about the ownership. -/
inductive OwnershipMsg
  | proposeNewOwner (owner : Addr) (expiresIn : Nat)
  | dropOwnershipProposal
  | claimOwnership
  deriving Repr, DecidableEq

/-- The event that a message is, when `sender` succeeds with it at time `now`. -/
def OwnershipMsg.event (sender : Addr) (now : Nat) : OwnershipMsg → OwnershipEvent
  | .proposeNewOwner owner expiresIn => .proposed sender owner expiresIn now
  | .dropOwnershipProposal => .dropped sender
  | .claimOwnership => .claimed sender now

/-- A contract calls the shared function of a message and stores what it returns. -/
def OwnershipMsg.execute (info : MessageInfo) (env : Env) (o : Ownership) :
    OwnershipMsg → Except StdError Ownership
  | .proposeNewOwner owner expiresIn => do
      let p ← Astroport.proposeNewOwner info env owner expiresIn o.owner
      .ok ⟨o.owner, some p⟩
  | .dropOwnershipProposal => do
      Astroport.dropOwnershipProposal info o.owner
      .ok ⟨o.owner, none⟩
  | .claimOwnership => do
      let owner ← Astroport.claimOwnership info env o.proposal
      .ok ⟨owner, none⟩

/-- What a handler does to the ownership whose message is about it or not. -/
def Ownership.Obeys (info : MessageInfo) (env : Env) (o : Ownership) (msg : Option OwnershipMsg)
    (o' : Ownership) : Prop :=
  match msg with
  | none => o' = o
  | some m => m.execute info env o = .ok o'

section Functions

variable {info : MessageInfo} {env : Env}

theorem proposeNewOwner_step {newOwner : Addr} {expiresIn : Nat} {o : Ownership}
    {p : OwnershipProposal} (h : proposeNewOwner info env newOwner expiresIn o.owner = .ok p) :
    o.Step env.time (.proposed info.sender newOwner expiresIn env.time) ⟨o.owner, some p⟩ := by
  simp only [proposeNewOwner, addrValidateToLower, bind_eq_ok, rejectIf_eq_ok, not_not,
    Except.ok.injEq] at h
  obtain ⟨_, hsender, _, ⟨_, -, rfl⟩, _, hnew, _, httl, _, httl', rfl⟩ := h
  obtain ⟨-, rfl⟩ := Uint.add_eq_ok.mp httl'
  rw [hsender]
  exact .proposed newOwner expiresIn hnew (Nat.le_of_not_lt httl)

theorem dropOwnershipProposal_step {o : Ownership} {u : Unit}
    (h : dropOwnershipProposal info o.owner = .ok u) :
    o.Step env.time (.dropped info.sender) ⟨o.owner, none⟩ := by
  have hsender := not_not.mp (rejectIf_eq_ok.mp h)
  rw [hsender]
  exact .dropped

theorem claimOwnership_step {o : Ownership} {owner : Addr}
    (h : claimOwnership info env o.proposal = .ok owner) :
    o.Step env.time (.claimed info.sender env.time) ⟨owner, none⟩ := by
  simp only [claimOwnership, bind_eq_ok, okOr_eq_ok, rejectIf_eq_ok, not_not,
    Except.ok.injEq] at h
  obtain ⟨p, hproposal, _, hsender, _, hunexpired, rfl⟩ := h
  rw [hsender]
  exact .claimed p hproposal (Nat.le_of_not_lt hunexpired)

theorem OwnershipMsg.execute_step {o o' : Ownership} {msg : OwnershipMsg}
    (h : msg.execute info env o = .ok o') :
    o.Step env.time (msg.event info.sender env.time) o' := by
  cases msg with
  | proposeNewOwner owner expiresIn =>
      simp only [execute, bind_eq_ok, Except.ok.injEq] at h
      obtain ⟨p, hpropose, rfl⟩ := h
      exact proposeNewOwner_step hpropose
  | dropOwnershipProposal =>
      simp only [execute, bind_eq_ok, Except.ok.injEq] at h
      obtain ⟨_, hdrop, rfl⟩ := h
      exact dropOwnershipProposal_step hdrop
  | claimOwnership =>
      simp only [execute, bind_eq_ok, Except.ok.injEq] at h
      obtain ⟨owner, hclaim, rfl⟩ := h
      exact claimOwnership_step hclaim

theorem Ownership.Obeys.moves {o o' : Ownership} {msg : Option OwnershipMsg}
    (h : o.Obeys info env msg o') :
    o.Moves env.time (msg.map (OwnershipMsg.event info.sender env.time)) o' := by
  cases msg with
  | none => exact h
  | some m => exact m.execute_step h

end Functions

/-! ### The record of a run -/

/-- Who took over with an event. -/
def OwnershipEvent.newOwner? : OwnershipEvent → Option Addr
  | .claimed newOwner _ => some newOwner
  | _ => none

/-- The owner after what was recorded. -/
def ownerAfter (start : Addr) (record : List OwnershipEvent) : Addr :=
  (record.filterMap OwnershipEvent.newOwner?).getLast?.getD start

/-- An event fits to those before it: the owner of the time proposes another one for some
time, or drops the proposal, and only the one who was just proposed takes over, in time. -/
def Proper (start : Addr) (before : List OwnershipEvent) : OwnershipEvent → Prop
  | .proposed proposer newOwner expiresIn _ =>
      proposer = ownerAfter start before ∧ newOwner ≠ proposer ∧ expiresIn ≤ maxProposalTtl
  | .dropped sender => sender = ownerAfter start before
  | .claimed newOwner time => ∃ earlier proposer expiresIn proposedAt,
      before = earlier ++ [.proposed proposer newOwner expiresIn proposedAt] ∧
        proposedAt ≤ time ∧ time ≤ proposedAt + expiresIn

theorem ownerAfter_snoc (start : Addr) (record : List OwnershipEvent) (e : OwnershipEvent) :
    ownerAfter start (record ++ [e]) = (e.newOwner?).getD (ownerAfter start record) := by
  unfold ownerAfter
  rw [getLast?_filterMap_snoc]
  cases e <;> rfl

section HandsOver

variable {S A ε : Type} {exec : S → A → Except ε S} {ownership : S → Ownership}
  {clock : S → Nat} {event : S → A → Option OwnershipEvent}

variable (exec ownership clock event) in
/-- The three messages do what the shared functions do, and nothing else touches the
ownership. -/
structure HandsOver : Prop where
  clock_le : ∀ s a s', exec s a = .ok s' → clock s ≤ clock s'
  moves : ∀ s a s', exec s a = .ok s' → (ownership s).Moves (clock s) (event s a) (ownership s')

variable (exec event) in
/-- The messages about the ownership that succeeded in a run. -/
def ownershipRecord (s : S) (as : List A) : List OwnershipEvent :=
  history exec (fun s a _ record => record ++ (event s a).toList) s [] as

/-- The record is proper, it ends with the owner, and the stored proposal is its last
event. -/
structure Recorded (start : Addr) (now : Nat) (o : Ownership) (record : List OwnershipEvent) :
    Prop where
  proper : Throughout (Proper start) record
  owner : o.owner = ownerAfter start record
  proposal : ∀ p, o.proposal = some p → ∃ earlier proposer expiresIn proposedAt,
    record = earlier ++ [.proposed proposer p.owner expiresIn proposedAt] ∧
      proposedAt ≤ now ∧ p.ttl = proposedAt + expiresIn

theorem Recorded.mono {start : Addr} {now now' : Nat} {o : Ownership}
    {record : List OwnershipEvent} (h : Recorded start now o record) (hle : now ≤ now') :
    Recorded start now' o record where
  proper := h.proper
  owner := h.owner
  proposal p hp := by
    obtain ⟨earlier, proposer, expiresIn, proposedAt, hrecord, hat, httl⟩ := h.proposal p hp
    exact ⟨earlier, proposer, expiresIn, proposedAt, hrecord, hat.trans hle, httl⟩

/-- One message about the ownership. -/
theorem Recorded.step {start : Addr} {now : Nat} {o o' : Ownership} {e : OwnershipEvent}
    {record : List OwnershipEvent} (h : Recorded start now o record) (hstep : o.Step now e o') :
    Recorded start now o' (record ++ [e]) := by
  cases hstep with
  | proposed newOwner expiresIn hnew httl =>
      refine ⟨h.proper.snoc ⟨h.owner, hnew, httl⟩, ?_, fun p hp => ?_⟩
      · rw [ownerAfter_snoc]
        exact h.owner
      · obtain rfl := Option.some.inj hp
        exact ⟨record, o.owner, expiresIn, now, rfl, le_refl now, rfl⟩
  | dropped =>
      refine ⟨h.proper.snoc h.owner, ?_, fun p hp => by cases hp⟩
      rw [ownerAfter_snoc]
      exact h.owner
  | claimed p hproposal hunexpired =>
      obtain ⟨earlier, proposer, expiresIn, proposedAt, hrecord, hat, httl⟩ :=
        h.proposal p hproposal
      refine ⟨h.proper.snoc ?_, ?_, fun p hp => by cases hp⟩
      · exact ⟨earlier, proposer, expiresIn, proposedAt, hrecord, hat, httl ▸ hunexpired⟩
      · rw [ownerAfter_snoc]
        rfl

/-- In every run the ownership is handed over properly. -/
theorem HandsOver.run (h : HandsOver exec ownership clock event) {s : S} (as : List A)
    (hstart : (ownership s).proposal = none) :
    Throughout (Proper (ownership s).owner) (ownershipRecord exec event s as) ∧
      (ownership (CosmWasm.run exec s as)).owner =
        ownerAfter (ownership s).owner (ownershipRecord exec event s as) := by
  have hrecorded : Recorded (ownership s).owner (clock (CosmWasm.run exec s as))
      (ownership (CosmWasm.run exec s as)) (ownershipRecord exec event s as) := by
    refine history_invariant
      (fun t record => Recorded (ownership s).owner (clock t) (ownership t) record) ?_ ?_
    · intro t a t' record ht hexec
      have hle := h.clock_le t a t' hexec
      have hmoves := h.moves t a t' hexec
      cases hevent : event t a with
      | none =>
          rw [hevent] at hmoves
          have hsame : ownership t' = ownership t := hmoves
          rw [hsame, Option.toList_none, List.append_nil]
          exact ht.mono hle
      | some e =>
          rw [hevent] at hmoves
          exact (ht.step hmoves).mono hle
    · exact ⟨Throughout.nil, rfl, fun p hp => by rw [hstart] at hp; cases hp⟩
  exact ⟨hrecorded.proper, hrecorded.owner⟩

end HandsOver

end NeutronTge.Astroport
