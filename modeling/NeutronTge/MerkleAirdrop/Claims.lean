import Mathlib.Algebra.Order.BigOperators.Group.List
import Mathlib.Data.List.Perm.Subperm
import NeutronTge.Merkle.Tree
import NeutronTge.MerkleAirdrop.Recovery

/-!
# NeutronTge.MerkleAirdrop.Claims

Who can claim. The contract holds the root of a tree over the accounts of the airdrop, and a
claim is accepted with the siblings of its account and, unless the hash has a collision, for an
account of the tree only: the strings that stand for inner nodes have 64 bytes, and no account
is written in 64 bytes. An account is paid once, so what was paid is at most what the tree has.
-/

namespace NeutronTge.MerkleAirdrop

open CosmWasm Merkle

variable {c : Codec}

/-! ### Strings -/

theorem sortedConcat_length (a b : Digest) : (sortedConcat a b).length = 64 := by
  unfold sortedConcat
  split_ifs <;> simp [a.length_eq, b.length_eq]

theorem Digest.eq_of_bytes {a b : Digest} (h : a.bytes = b.bytes) : a = b := by
  cases a
  cases b
  simp only at h
  subst h
  rfl

/-- Two digests are sorted before they are concatenated. -/
theorem sortedConcat_unordered : Unordered sortedConcat where
  comm a b := by
    unfold sortedConcat
    by_cases hba : b.bytes < a.bytes
    · rw [if_pos hba, if_neg (List.lt_asymm hba)]
    · by_cases hab : a.bytes < b.bytes
      · rw [if_neg hba, if_pos hab]
      · have hsame : a.bytes = b.bytes := Std.Trichotomous.trichotomous _ _ hab hba
        rw [if_neg hba, if_neg hab, hsame]
  inj := by
    intro a b c d h
    have hsplit : ∀ x y z w : Digest, x.bytes ++ y.bytes = z.bytes ++ w.bytes →
        x = z ∧ y = w := by
      intro x y z w hxy
      obtain ⟨hx, hy⟩ := List.append_inj hxy (x.length_eq.trans z.length_eq.symm)
      exact ⟨Digest.eq_of_bytes hx, Digest.eq_of_bytes hy⟩
    unfold sortedConcat at h
    split_ifs at h
    · obtain ⟨hb, ha⟩ := hsplit _ _ _ _ h
      exact Or.inl ⟨ha, hb⟩
    · obtain ⟨hb, ha⟩ := hsplit _ _ _ _ h
      exact Or.inr ⟨ha, hb⟩
    · obtain ⟨ha, hb⟩ := hsplit _ _ _ _ h
      exact Or.inr ⟨ha, hb⟩
    · exact Or.inl (hsplit _ _ _ _ h)

theorem toString_inj {m n : Nat} (h : toString m = toString n) : m = n := by
  have hdigits : Nat.toDigits 10 m = Nat.toDigits 10 n := by
    have hlist := congrArg String.toList h
    simpa [Nat.toString_eq_repr, Nat.repr_eq_ofList_toDigits] using hlist
  rw [← @Nat.ofDigitChars_ten_toDigits m, hdigits, Nat.ofDigitChars_ten_toDigits]

/-- With addresses of one length the string tells the account. -/
theorem userInput_inj {a b : Addr} {m n : Nat} (hlength : a.length = b.length)
    (h : userInput a m = userInput b n) : a = b ∧ m = n := by
  unfold userInput at h
  have harray : (a ++ toString m).toUTF8.data = (b ++ toString n).toUTF8.data :=
    Array.toList_inj.mp h
  have hbytes : (a ++ toString m).toUTF8 = (b ++ toString n).toUTF8 := ByteArray.ext harray
  have hstring : a ++ toString m = b ++ toString n := String.toByteArray_inj.mp hbytes
  have hlist := congrArg String.toList hstring
  rw [String.toList_append, String.toList_append] at hlist
  obtain ⟨haddr, hamount⟩ := List.append_inj hlist hlength
  exact ⟨String.toList_inj.mp haddr, toString_inj (String.toList_inj.mp hamount)⟩

/-! ### The check of a proof -/

/-- An account with its amount as a string. -/
def accountInput (account : Addr × Nat) : Bytes := userInput account.1 account.2

/-- The root of the tree over some accounts. -/
def rootOf (c : Codec) (t : HashTree (Addr × Nat)) : Digest :=
  t.root c.sha256 sortedConcat accountInput

/-- Everything that is hashed for the tree. -/
def treeInputs (c : Codec) (t : HashTree (Addr × Nat)) : List Bytes :=
  t.inputs c.sha256 sortedConcat accountInput

/-- The accounts of the tree with the digests that prove them. -/
def accountPaths (c : Codec) (t : HashTree (Addr × Nat)) : List ((Addr × Nat) × List Digest) :=
  t.paths c.sha256 sortedConcat accountInput

/-- A proof stands for these digests. -/
def Decodes (c : Codec) (proof : List String) (siblings : List Digest) : Prop :=
  List.Forall₂ (fun p digest => c.decodeToSlice p = .ok digest) proof siblings

/-- Everything that is hashed for a proof, as far as it can be decoded. -/
def proofInputs (c : Codec) : Digest → List String → List Bytes
  | _, [] => []
  | hash, p :: proof =>
      match c.decodeToSlice p with
      | .ok digest =>
          sortedConcat hash digest :: proofInputs c (c.sha256 (sortedConcat hash digest)) proof
      | .error _ => []

/-- The contract folds the digests of a proof as the tree does. -/
theorem foldProof_eq_ok {proof : List String} : ∀ {hash digest : Digest},
    foldProof c hash proof = .ok digest ↔ ∃ siblings, Decodes c proof siblings ∧
      digest = fold c.sha256 sortedConcat hash siblings := by
  induction proof with
  | nil =>
      intro hash digest
      unfold foldProof
      simp only [List.foldlM_nil, pure_eq_ok, Decodes, List.forall₂_nil_left_iff, exists_eq_left,
        fold_nil]
      exact eq_comm
  | cons p proof ih =>
      intro hash digest
      unfold foldProof Decodes
      rw [foldlM_cons_ok]
      simp only [bind_eq_ok, mapError_eq_ok, Except.ok.injEq, List.forall₂_cons_left_iff]
      constructor
      · rintro ⟨_, ⟨sibling, hsibling, rfl⟩, hrest⟩
        obtain ⟨siblings, hsiblings, rfl⟩ := ih.mp hrest
        exact ⟨sibling :: siblings, ⟨sibling, siblings, hsibling, hsiblings, rfl⟩, rfl⟩
      · rintro ⟨_, ⟨sibling, siblings, hsibling, hsiblings, rfl⟩, rfl⟩
        exact ⟨_, ⟨sibling, hsibling, rfl⟩, ih.mpr ⟨siblings, hsiblings, rfl⟩⟩

theorem proofInputs_of_decodes {proof : List String} : ∀ {siblings : List Digest} {hash : Digest},
    Decodes c proof siblings →
      proofInputs c hash proof = foldInputs c.sha256 sortedConcat hash siblings := by
  induction proof with
  | nil =>
      intro siblings hash h
      obtain rfl := List.forall₂_nil_left_iff.mp h
      rfl
  | cons p proof ih =>
      intro siblings hash h
      obtain ⟨sibling, rest, hsibling, hrest, rfl⟩ := List.forall₂_cons_left_iff.mp h
      simp only [proofInputs, hsibling, foldInputs]
      rw [ih hrest]

/-- The root of the contract is that of the tree. -/
def Storage.Holds (s : Storage) (c : Codec) (t : HashTree (Addr × Nat)) : Prop :=
  c.decodeToSlice s.merkleRoot = .ok (rootOf c t)

section Verify

variable {s : Storage} {t : HashTree (Addr × Nat)}
variable {addr : Addr} {amount : Nat} {proof : List String}

theorem verifyProof_eq_ok (hholds : s.Holds c t) :
    verifyProof c s addr amount proof = .ok () ↔ ∃ siblings, Decodes c proof siblings ∧
      fold c.sha256 sortedConcat (c.sha256 (userInput addr amount)) siblings = rootOf c t := by
  unfold verifyProof
  simp only [bind_eq_ok, mapError_eq_ok, rejectIf_eq_ok, not_not, foldProof_eq_ok]
  constructor
  · rintro ⟨_, ⟨siblings, hsiblings, rfl⟩, root, hroot, hsame⟩
    obtain rfl := Except.ok.inj (hroot.symm.trans hholds)
    exact ⟨siblings, hsiblings, hsame.symm⟩
  · rintro ⟨siblings, hsiblings, hsame⟩
    exact ⟨_, ⟨siblings, hsiblings, rfl⟩, rootOf c t, hholds, hsame.symm⟩

/-- The siblings of an account prove it. -/
theorem verifyProof_complete (hholds : s.Holds c t) {siblings : List Digest}
    (hpath : ((addr, amount), siblings) ∈ accountPaths c t) (hproof : Decodes c proof siblings) :
    verifyProof c s addr amount proof = .ok () :=
  (verifyProof_eq_ok hholds).mpr
    ⟨siblings, hproof, t.fold_of_mem_paths sortedConcat_unordered _ hpath⟩

/-- An honest claim hashes nothing that is not hashed for the tree. -/
theorem inputs_of_path {siblings : List Digest}
    (hpath : ((addr, amount), siblings) ∈ accountPaths c t) (hproof : Decodes c proof siblings) :
    ∀ b ∈ userInput addr amount :: proofInputs c (c.sha256 (userInput addr amount)) proof,
      b ∈ treeInputs c t := by
  obtain ⟨hleaf, hfold⟩ := t.foldInputs_of_mem_paths sortedConcat_unordered _ hpath
  rw [proofInputs_of_decodes hproof]
  intro b hb
  rcases List.mem_cons.mp hb with rfl | hb
  · exact hleaf
  · exact hfold b hb

/-- What is proved is an account of the tree. -/
theorem verifyProof_sound (hholds : s.Holds c t) {strings : Set Bytes}
    (hcollision : Set.InjOn c.sha256 strings) (htree : ∀ b ∈ treeInputs c t, b ∈ strings)
    (hclaim : ∀ b ∈ userInput addr amount ::
      proofInputs c (c.sha256 (userInput addr amount)) proof, b ∈ strings)
    (hlength : ∀ account ∈ t.leaves, account.1.length = addr.length)
    (htree64 : ∀ account ∈ t.leaves, (accountInput account).length ≠ 64)
    (hclaim64 : (userInput addr amount).length ≠ 64)
    (h : verifyProof c s addr amount proof = .ok ()) : (addr, amount) ∈ t.leaves := by
  obtain ⟨siblings, hsiblings, hroot⟩ := (verifyProof_eq_ok hholds).mp h
  rw [proofInputs_of_decodes hsiblings] at hclaim
  obtain ⟨account, haccount, hsame⟩ := HashTree.mem_leaves_of_fold sortedConcat_unordered hcollision
    (hclaim _ List.mem_cons_self)
    (fun a b heq => hclaim64 (heq ▸ sortedConcat_length a b)) htree
    (fun account haccount a b heq =>
      htree64 account haccount (heq ▸ sortedConcat_length a b))
    (fun b hb => hclaim b (List.mem_cons_of_mem _ hb)) hroot
  obtain ⟨haddr, hamount⟩ := userInput_inj (hlength account haccount) hsame
  have heq : account = (addr, amount) := Prod.ext haddr hamount
  exact heq ▸ haccount

end Verify

/-! ### Runs -/

section Runs

variable {cw20 : Credits.Cw20Base} {t : HashTree (Addr × Nat)} {w w' : World}

/-- What an action claims. -/
def Action.claimed : Action → Option (Addr × Nat × List String)
  | .execute info (.claim amount proof) => some (info.sender, amount, proof)
  | _ => none

/-- Everything that is hashed for a claim. -/
def claimInputs (c : Codec) (addr : Addr) (amount : Nat) (proof : List String) : List Bytes :=
  userInput addr amount :: proofInputs c (c.sha256 (userInput addr amount)) proof

/-- Everything that is hashed for the tree and for the claims of a run. -/
def hashedStrings (c : Codec) (t : HashTree (Addr × Nat)) (as : List Action) : Set Bytes :=
  {b | b ∈ treeInputs c t ∨ ∃ a ∈ as, ∃ addr amount proof,
    a.claimed = some (addr, amount, proof) ∧ b ∈ claimInputs c addr amount proof}

/-- The assumptions on the hash and on the accounts of the tree and the claims of a run. -/
structure Assumed (c : Codec) (t : HashTree (Addr × Nat)) (as : List Action) : Prop where
  collisionFree : Set.InjOn c.sha256 (hashedStrings c t as)
  sameLength : ∃ n, (∀ account ∈ t.leaves, account.1.length = n) ∧
    ∀ a ∈ as, ∀ addr amount proof, a.claimed = some (addr, amount, proof) → addr.length = n
  not64 : (∀ account ∈ t.leaves, (accountInput account).length ≠ 64) ∧
    ∀ a ∈ as, ∀ addr amount proof, a.claimed = some (addr, amount, proof) →
      (userInput addr amount).length ≠ 64

/-- A claim proves an account of the tree only. -/
def Action.Genuine (c : Codec) (t : HashTree (Addr × Nat)) (a : Action) : Prop :=
  ∀ addr amount proof, a.claimed = some (addr, amount, proof) → ∀ s : Storage, s.Holds c t →
    verifyProof c s addr amount proof = .ok () → (addr, amount) ∈ t.leaves

theorem Assumed.genuine {as : List Action} (h : Assumed c t as) : ∀ a ∈ as, a.Genuine c t := by
  intro a ha addr amount proof hclaimed s hholds hverify
  obtain ⟨n, htree, hclaims⟩ := h.sameLength
  refine verifyProof_sound hholds h.collisionFree (fun b hb => Or.inl hb) (fun b hb => ?_)
    (fun account haccount => ?_) h.not64.1 (h.not64.2 a ha addr amount proof hclaimed) hverify
  · exact Or.inr ⟨a, ha, addr, amount, proof, hclaimed, hb⟩
  · rw [htree account haccount, hclaims a ha addr amount proof hclaimed]

/-- What was paid, and what the contract knows of it. -/
structure Booked (c : Codec) (t : HashTree (Addr × Nat)) (w : World) : Prop where
  holds : w.storage.Holds c t
  leaves : ∀ account ∈ w.paid, account ∈ t.leaves
  once : (w.paid.map Prod.fst).Nodup
  marked : ∀ addr ∈ w.paid.map Prod.fst, w.storage.claim.mayLoad addr ≠ none
  total : w.storage.amountClaimed = (w.paid.map Prod.snd).sum

theorem call_paid {contractAddr : Addr} {msg : Credits.ExecuteMsg}
    (h : w.call cw20 contractAddr msg = .ok w') : w'.paid = w.paid := by
  obtain ⟨-, credits, -, rfl⟩ := call_ok h
  rfl

/-- Only a transfer pays. -/
theorem dispatch_paid {msg : CosmosMsg} (hmsg : ∀ addr recipient amount,
    msg ≠ .transfer addr recipient amount) (h : w.dispatch cw20 msg = .ok w') :
    w'.paid = w.paid := by
  cases msg with
  | transfer contractAddr recipient amount => exact absurd rfl (hmsg _ _ _)
  | addVesting => exact call_paid h
  | burn => exact call_paid h
  | bankSend toAddress coin =>
      simp only [World.dispatch, bind_eq_ok, rejectIf_eq_ok, exists_const, mapError_eq_ok,
        Except.ok.injEq] at h
      obtain ⟨-, rest, -, rfl⟩ := h
      rfl

theorem dispatches_paid {msgs : List CosmosMsg} {v v' : World}
    (hmsgs : ∀ m ∈ msgs, ∀ addr recipient amount, m ≠ .transfer addr recipient amount)
    (h : msgs.foldlM (World.dispatch cw20) v = .ok v') : v'.paid = v.paid :=
  foldlM_relation (R := fun v v' : World => v'.paid = v.paid) (fun _ => rfl)
    (fun _ _ _ hv hv' => hv'.trans hv) (fun _ _ m hm => dispatch_paid (hmsgs m hm)) h

/-- Nothing was claimed or paid. -/
theorem Booked.same (h : Booked c t w) (hclaim : w'.storage.claim = w.storage.claim)
    (hamount : w'.storage.amountClaimed = w.storage.amountClaimed)
    (hroot : w'.storage.merkleRoot = w.storage.merkleRoot) (hpaid : w'.paid = w.paid) :
    Booked c t w' := by
  refine ⟨?_, ?_, ?_, ?_, ?_⟩
  · unfold Storage.Holds
    rw [hroot]
    exact h.holds
  · rw [hpaid]
    exact h.leaves
  · rw [hpaid]
    exact h.once
  · rw [hpaid, hclaim]
    exact h.marked
  · rw [hpaid, hamount]
    exact h.total

/-- A claim pays an account that was not paid before. -/
theorem Booked.claims (h : Booked c t w) {s : Storage} {env : Env} {claimant : Addr}
    {amount : Nat} {proof : List String} {msgs : List CosmosMsg}
    (hclaims : Claims c w.storage s env claimant amount proof msgs)
    (hleaf : (claimant, amount) ∈ t.leaves) (hstorage : w'.storage = s)
    (hpaid : w'.paid = w.paid ++ [(claimant, amount)]) : Booked c t w' := by
  have hnew : claimant ∉ w.paid.map Prod.fst :=
    fun hmem => h.marked claimant hmem hclaims.unclaimed
  rw [hclaims.storage] at hstorage
  refine ⟨?_, ?_, ?_, ?_, ?_⟩
  · unfold Storage.Holds
    rw [hstorage]
    exact h.holds
  · intro account haccount
    rw [hpaid, List.mem_append, List.mem_singleton] at haccount
    rcases haccount with hold | rfl
    · exact h.leaves account hold
    · exact hleaf
  · rw [hpaid, List.map_append, List.nodup_append]
    refine ⟨h.once, by simp, ?_⟩
    rintro addr haddr other hother rfl
    obtain rfl := List.mem_singleton.mp hother
    exact hnew haddr
  · intro addr haddr
    rw [hstorage, Map.mayLoad_save_eq]
    split_ifs with hsame
    · exact Option.some_ne_none true
    · refine h.marked addr ?_
      rw [hpaid, List.map_append, List.mem_append] at haddr
      exact haddr.resolve_right fun hlast => hsame (List.mem_singleton.mp hlast)
  · rw [hstorage, hpaid]
    simp [h.total]

theorem Booked.exec {a : Action} (h : Booked c t w) (hgenuine : a.Genuine c t)
    (hexec : w.exec cw20 c a = .ok w') : Booked c t w' := by
  cases a with
  | donate amount =>
      obtain rfl := Except.ok.inj hexec
      exact h.same rfl rfl rfl rfl
  | credits action =>
      simp only [World.exec, bind_eq_ok, rejectIf_eq_ok, exists_const, mapError_eq_ok,
        Except.ok.injEq] at hexec
      obtain ⟨-, credits, -, rfl⟩ := hexec
      exact h.same rfl rfl rfl rfl
  | execute info msg =>
      obtain ⟨-, s, msgs, heffect, hrun⟩ := execute_ok hexec
      have hstorage : w'.storage = s := dispatches_storage hrun
      rcases heffect.claims_or_quiet with ⟨amount, proof, rfl, hclaims⟩ | hquiet
      · obtain ⟨-, hpays⟩ := claim_pays hclaims hrun
        exact h.claims hclaims (hgenuine _ _ _ rfl _ h.holds hclaims.verified) hstorage hpays.paid
      · have hpaid := dispatches_paid hquiet.noTransfer hrun
        rw [← hstorage] at hquiet
        exact h.same hquiet.claim hquiet.amountClaimed hquiet.merkleRoot hpaid

/-- Distinct accounts of the tree have at most what the tree has. -/
theorem Booked.paid_le (h : Booked c t w) :
    (w.paid.map Prod.snd).sum ≤ (t.leaves.map Prod.snd).sum := by
  obtain ⟨part, hperm, hsub⟩ := (List.Nodup.of_map _ h.once).subperm h.leaves
  rw [← (hperm.map Prod.snd).sum_eq]
  exact (hsub.map Prod.snd).sum_le_sum fun _ _ => Nat.zero_le _

/-- What holds of the claims in a state of a run. -/
structure AirdropSound (c : Codec) (t : HashTree (Addr × Nat)) (w : World) : Prop where
  /-- With the siblings of its account a claim fails only because it is not the time, or the
  account has claimed before, or the total would not fit. -/
  complete : ∀ {addr : Addr} {amount : Nat} {siblings : List Digest} {proof : List String}
    {funds : List Coin}, ((addr, amount), siblings) ∈ accountPaths c t → Decodes c proof siblings →
    ((∃ s msgs, executeClaim c w.storage w.env ⟨addr, funds⟩ amount proof = .ok (s, msgs)) ↔
      w.storage.Open w.credits.env.time ∧ w.storage.paused = false ∧
        w.storage.claim.mayLoad addr = none ∧ w.storage.amountClaimed + amount < 2 ^ 128)
  /-- Only accounts of the tree were paid. -/
  sound : ∀ account ∈ w.paid, account ∈ t.leaves
  /-- No address was paid twice. -/
  once : (w.paid.map Prod.fst).Nodup
  /-- The total is what was paid. -/
  total : w.storage.amountClaimed = (w.paid.map Prod.snd).sum
  bounded : w.storage.amountClaimed ≤ (t.leaves.map Prod.snd).sum

/-- Claims are sound, complete and once only in every state of every run. -/
theorem claims_of_run {w₀ : World} {as : List Action} (hstarted : Started c w₀)
    (hholds : w₀.storage.Holds c t) (hassumed : Assumed c t as) :
    AirdropSound c t (run (World.exec cw20 c) w₀ as) := by
  have hstart : Booked c t w₀ := by
    obtain ⟨info, msg, hinit, -⟩ := hstarted.storage
    have hpaid := hstarted.paid
    refine ⟨hholds, by simp [hpaid], by simp [hpaid], by simp [hpaid], ?_⟩
    rw [hpaid, instantiate_ok hinit]
    rfl
  have hbooked : Booked c t (run (World.exec cw20 c) w₀ as) :=
    run_invariant_along (Booked c t) (fun _ _ _ h hgenuine hexec => h.exec hgenuine hexec) hstart
      (along_of_forall _ hassumed.genuine)
  generalize run (World.exec cw20 c) w₀ as = w at hbooked
  refine ⟨?_, hbooked.leaves, hbooked.once, hbooked.total, hbooked.total ▸ hbooked.paid_le⟩
  intro addr amount siblings proof funds hpath hproof
  have hverified := verifyProof_complete hbooked.holds hpath hproof
  constructor
  · rintro ⟨s, msgs, hexec⟩
    have hclaims := executeClaim_eq_ok.mp hexec
    exact ⟨hclaims.opened, hclaims.unpaused, hclaims.unclaimed, hclaims.fits⟩
  · rintro ⟨hopen, hunpaused, hunclaimed, hfits⟩
    exact ⟨_, _, executeClaim_eq_ok.mpr
      ⟨hopen, hunpaused, hunclaimed, hverified, hfits, rfl, rfl⟩⟩

end Runs

/-! ### The tree of the contract's tests -/

/-- The accounts of the tests with the tree over them. -/
def sampleTree : HashTree (Addr × Nat) :=
  .node
    (.node
      (.node (.leaf (sampleAccount, 100))
        (.leaf ("wasm1qzy8rg0f406uvvl54dlww6ptlh30303xq2u3xu", 10220)))
      (.node (.leaf ("wasm1uy9ucvgerneekxpnfwyfnpxvlsx5dzdpf0mzjd", 1010))
        (.leaf ("wasm1a4x6au55s0fusctyj2ulrxvfpmjcxa92k7ze2v", 10220))))
    (.node (.leaf ("wasm1xn46zz5m3fhymcrcwe82m0ac8ytt588dkpaeas", 10220))
      (.leaf ("wasm1ylna88nach9sn5n7qe7u5l6lh7dmt6lp2y63xx", 10333)))

theorem sampleTree_holds : sampleStart.storage.Holds codec sampleTree := by
  unfold Storage.Holds
  decide +kernel

/-- The airdrop is funded, and one account claims. -/
def sampleRun : List Action := sampleFunding ++ [.credits (.advance 20 1), sampleClaim]

/-- The digests of the proof of the first account. -/
def sampleSiblings : List Digest :=
  ((accountPaths codec sampleTree).head?.map Prod.snd).getD []

theorem sample_path :
    (accountPaths codec sampleTree).head? = some ((sampleAccount, 100), sampleSiblings) := rfl

theorem sample_decodes : Decodes codec sampleProof sampleSiblings := by
  unfold Decodes
  decide +kernel

theorem sample_claimed {a : Action} (ha : a ∈ sampleRun) {addr : Addr} {amount : Nat}
    {proof : List String} (h : a.claimed = some (addr, amount, proof)) :
    addr.length = 43 ∧ (userInput addr amount).length ≠ 64 ∧
      ∀ b ∈ claimInputs codec addr amount proof, b ∈ treeInputs codec sampleTree := by
  simp only [sampleRun, sampleFunding, List.cons_append, List.nil_append, List.mem_cons,
    List.not_mem_nil, or_false] at ha
  rcases ha with rfl | rfl | rfl | rfl
  · cases h
  · cases h
  · cases h
  · obtain ⟨rfl, rfl, rfl⟩ := h
    refine ⟨by decide +kernel, by decide +kernel, ?_⟩
    exact inputs_of_path (List.mem_of_mem_head? sample_path) sample_decodes

/-- Whether no two strings have the same digest; `seen` are the digests so far, as numbers. -/
def digestsDistinct (c : Codec) : List Bytes → List Nat → Bool
  | [], _ => true
  | b :: bs, seen =>
      Sha256.withWord (Sha256.toWord (c.sha256 b).bytes) fun digest =>
        !seen.contains digest && digestsDistinct c bs (digest :: seen)

theorem withWord_eq {α : Type} (n : Nat) (f : Nat → α) : Sha256.withWord n f = f n := by
  cases n <;> rfl

theorem nodup_of_digestsDistinct : ∀ {bs : List Bytes} {seen : List Nat},
    digestsDistinct c bs seen = true → (bs.map c.sha256).Nodup ∧
      ∀ digest ∈ bs.map c.sha256, Sha256.toWord digest.bytes ∉ seen := by
  intro bs
  induction bs with
  | nil => exact fun _ => ⟨List.nodup_nil, by simp⟩
  | cons b bs ih =>
      intro seen h
      simp only [digestsDistinct, withWord_eq, Bool.and_eq_true, Bool.not_eq_true',
        List.contains_eq_mem, decide_eq_false_iff_not] at h
      obtain ⟨hnodup, hunseen⟩ := ih h.2
      rw [List.map_cons, List.nodup_cons]
      refine ⟨⟨fun hmem => hunseen _ hmem List.mem_cons_self, hnodup⟩, ?_⟩
      intro digest hdigest
      rcases List.mem_cons.mp hdigest with rfl | hrest
      · exact h.1
      · exact fun hmem => hunseen digest hrest (List.mem_cons_of_mem _ hmem)

theorem sample_assumed : Assumed codec sampleTree sampleRun where
  collisionFree := by
    have hdistinct : ((treeInputs codec sampleTree).map codec.sha256).Nodup :=
      (@nodup_of_digestsDistinct codec (treeInputs codec sampleTree) [] (by decide +kernel)).1
    have htree : ∀ b ∈ hashedStrings codec sampleTree sampleRun,
        b ∈ treeInputs codec sampleTree := by
      rintro b (hb | ⟨a, ha, addr, amount, proof, hclaimed, hb⟩)
      · exact hb
      · exact (sample_claimed ha hclaimed).2.2 b hb
    exact fun b hb b₂ hb₂ hsame =>
      List.inj_on_of_nodup_map hdistinct (htree b hb) (htree b₂ hb₂) hsame
  sameLength := ⟨43, by decide +kernel, fun a ha addr amount proof h => (sample_claimed ha h).1⟩
  not64 := ⟨by decide +kernel, fun a ha addr amount proof h => (sample_claimed ha h).2.1⟩

theorem claims_of_run_sample : AirdropSound codec sampleTree
    (run (World.exec Credits.cw20Base codec) sampleStart sampleRun) :=
  claims_of_run sampleStart_started sampleTree_holds sample_assumed

end NeutronTge.MerkleAirdrop
