import NeutronTge.MerkleAirdrop.Claims

/-!
# NeutronTge.MerkleAirdrop.Helper

The command line helper of the airdrop: the class `Airdrop`, which makes the root and the
proofs that the contract checks, and `verify`, which is meant to check a proof as the contract
does. It does not. It hashes texts where the contract hashes digests, it compares the root with
a text of twice its length, and a proof with at least one element ends in a type error. So
`verify` accepts nothing, and it agrees with the contract on the proofs that the contract rejects.

The package `merkletreejs` is a parameter (`MerkleTreeJs`).
-/

namespace NeutronTge.MerkleAirdrop

open CosmWasm Merkle

/-! ### Texts and buffers -/

/-- The bytes of a text. -/
def utf8 (s : String) : Bytes := s.toUTF8.data.toList

/-- The digit of a number below 16. -/
def hexDigit (n : Nat) : Char := "0123456789abcdef".toList.getD n '0'

/-- `toString('hex')`, in lower case. -/
def hexText (bytes : Bytes) : String :=
  String.ofList (bytes.flatMap fun b => [hexDigit (b.toNat / 16), hexDigit (b.toNat % 16)])

/-- `Buffer.from(text, 'hex')`: what comes after the first wrong character is dropped. -/
def bufferFromHex : List Char → Bytes
  | high :: low :: rest =>
      match hexValue high, hexValue low with
      | some h, some l => UInt8.ofNat (h * 16 + l) :: bufferFromHex rest
      | _, _ => []
  | _ => []

/-- `replace('0x', '')`. -/
def removeHexPrefix : List Char → List Char
  | '0' :: 'x' :: rest => rest
  | c :: rest => c :: removeHexPrefix rest
  | [] => []

/-- What `Buffer.from` is called with: a text, or the result of `sha256` of `crypto-js`. -/
inductive JsValue
  | text (s : String)
  | wordArray (digest : Digest)

/-- `TypeError [ERR_INVALID_ARG_TYPE]`. -/
inductive JsError
  | invalidArgType
  deriving Repr, DecidableEq

/-- `Buffer.from`. A `WordArray` is neither a text nor like an array. -/
def bufferFrom : JsValue → Except JsError Bytes
  | .text s => .ok (utf8 s)
  | .wordArray _ => .error .invalidArgType

/-- The code units of a text, which JavaScript compares. -/
def utf16 (s : String) : List Nat :=
  s.toList.flatMap fun c =>
    if c.toNat < 0x10000 then [c.toNat]
    else [0xd800 + (c.toNat - 0x10000) / 0x400, 0xdc00 + (c.toNat - 0x10000) % 0x400]

/-! ### The class `Airdrop` -/

/-- An entry of the list that the helper makes the tree of. -/
structure Account where
  address : String
  amount : String
  deriving Repr, DecidableEq

/-- A tree of `merkletreejs` over the digests of the leaves, with `sort: true`. -/
structure MerkleTreeJs where
  /-- `getRoot`; the tree without leaves has none. -/
  getRoot : List Digest → Option Digest
  /-- The digests of `getProof`. -/
  getProof : List Digest → Digest → List Digest

section Airdrop

variable (c : Codec) (js : MerkleTreeJs)

/-- The digest of an account. -/
def leafOf (account : Account) : Digest := c.sha256 (utf8 (account.address ++ account.amount))

/-- `getMerkleRoot`. -/
def getMerkleRoot (accounts : List Account) : String :=
  let hexRoot := "0x" ++ ((js.getRoot (accounts.map (leafOf c))).map fun root =>
    hexText root.bytes).getD ""
  String.ofList (removeHexPrefix hexRoot.toList)

/-- `getMerkleProof`. -/
def getMerkleProof (accounts : List Account) (account : Account) : List String :=
  (js.getProof (accounts.map (leafOf c)) (leafOf c account)).map fun digest =>
    String.ofList (removeHexPrefix ("0x" ++ hexText digest.bytes).toList)

/-- One round of `verify`; `toText` is `toString()` of a buffer. -/
def verifyRound (toText : Bytes → String) (hashBuf : Bytes) (proofElem : String) :
    Except JsError Bytes :=
  let proofBuf := bufferFromHex proofElem.toList
  if utf16 (toText hashBuf) < utf16 (toText proofBuf) then
    bufferFrom (.wordArray (c.sha256 (utf8 (toText (hashBuf ++ proofBuf)))))
  else bufferFrom (.wordArray (c.sha256 (utf8 (toText (proofBuf ++ hashBuf)))))

/-- `verify`. -/
def verify (toText : Bytes → String) (accounts : List Account) (proof : List String)
    (account : Account) : Except JsError Bool := do
  let hashBuf ← bufferFrom (.text (hexText (leafOf c account).bytes))
  let hashBuf ← proof.foldlM (verifyRound c toText) hashBuf
  .ok (getMerkleRoot c js accounts == hexText hashBuf)

end Airdrop

/-! ### Lengths -/

theorem hexText_length (bytes : Bytes) : (hexText bytes).toList.length = 2 * bytes.length := by
  unfold hexText
  rw [String.toList_ofList]
  induction bytes with
  | nil => rfl
  | cons b bytes ih =>
      simp only [List.flatMap_cons, List.length_append, List.length_cons, List.length_nil, ih]
      omega

theorem length_le_utf8Encode (l : List Char) : l.length ≤ l.utf8Encode.size := by
  induction l with
  | nil => exact Nat.zero_le _
  | cons ch l ih =>
      have hone : 0 < [ch].utf8Encode.size := by
        rw [List.utf8Encode_singleton, List.size_toByteArray, String.length_utf8EncodeChar]
        exact ch.utf8Size_pos
      rw [List.utf8Encode_cons, ByteArray.size_append, List.length_cons]
      omega

/-- A character takes at least one byte. -/
theorem length_le_utf8 (s : String) : s.toList.length ≤ (utf8 s).length := by
  have h := length_le_utf8Encode s.toList
  rw [String.utf8Encode_toList] at h
  exact h

theorem removeHexPrefix_hexPrefix (s : String) :
    String.ofList (removeHexPrefix ("0x" ++ s).toList) = s := by
  rw [String.toList_append]
  show String.ofList s.toList = s
  exact String.ofList_toList

variable {c : Codec} {js : MerkleTreeJs}

/-- The root as a text has 64 characters or none. -/
theorem getMerkleRoot_length (accounts : List Account) :
    (getMerkleRoot c js accounts).toList.length ≤ 64 := by
  unfold getMerkleRoot
  dsimp only
  rw [removeHexPrefix_hexPrefix]
  cases js.getRoot (accounts.map (leafOf c)) with
  | none => exact Nat.zero_le _
  | some root =>
      show (hexText root.bytes).toList.length ≤ 64
      rw [hexText_length, root.length_eq]

/-- `verify` accepts nothing. -/
theorem verify_ne_true (toText : Bytes → String) (accounts : List Account) (proof : List String)
    (account : Account) : verify c js toText accounts proof account ≠ .ok true := by
  intro h
  unfold verify at h
  simp only [bind_eq_ok, bufferFrom, Except.ok.injEq] at h
  obtain ⟨_, rfl, hashBuf, hfold, hsame⟩ := h
  cases proof with
  | nil =>
      obtain rfl := pure_eq_ok.mp hfold
      have hroot := @getMerkleRoot_length c js accounts
      rw [beq_iff_eq.mp hsame, hexText_length] at hroot
      have hbytes := length_le_utf8 (hexText (leafOf c account).bytes)
      rw [hexText_length, (leafOf c account).length_eq] at hbytes
      omega
  | cons p proof =>
      -- the first round ends in a type error
      obtain ⟨_, hround, -⟩ := foldlM_cons_ok.mp hfold
      unfold verifyRound bufferFrom at hround
      simp at hround

/-! ### Trees over digests -/

/-- What is hashed in a tree over digests: the digest of a leaf is the leaf itself. -/
def digestOf (c : Codec) : Digest ⊕ Bytes → Digest := Sum.elim id c.sha256

/-- The string that stands for an inner node. -/
def innerNode (a b : Digest) : Digest ⊕ Bytes := .inr (sortedConcat a b)

theorem innerNode_unordered : Unordered innerNode where
  comm a b := congrArg Sum.inr (sortedConcat_unordered.comm a b)
  inj h := sortedConcat_unordered.inj (Sum.inr_injective h)

/-- What is expected of the package: its root and its proofs are those of a tree over the leaves
in which the digests of two siblings are sorted. -/
structure MerkleTreeJs.SortedPairs (js : MerkleTreeJs) (c : Codec) : Prop where
  empty : js.getRoot [] = none
  tree : ∀ leaves, leaves ≠ [] → ∃ t : HashTree Digest, t.leaves.Perm leaves ∧
    js.getRoot leaves = some (t.root (digestOf c) innerNode Sum.inl) ∧
    ∀ digest ∈ leaves,
      (digest, js.getProof leaves digest) ∈ t.paths (digestOf c) innerNode Sum.inl

/-- What is expected of `decode_to_slice`. -/
structure Codec.ReadsHex (c : Codec) : Prop where
  digest : ∀ digest : Digest, c.decodeToSlice (hexText digest.bytes) = .ok digest
  short : ∀ digest, c.decodeToSlice "" ≠ .ok digest

/-- The proof stands for digests that lead from the account to the root of the tree over the
accounts. -/
def LeadsToRoot (c : Codec) (js : MerkleTreeJs) (accounts : List Account) (addr : Addr)
    (amount : Nat) (proof : List String) : Prop :=
  ∃ siblings, Decodes c proof siblings ∧ js.getRoot (accounts.map (leafOf c)) =
    some (fold c.sha256 sortedConcat (c.sha256 (userInput addr amount)) siblings)

section Agreement

variable {s : Storage} {accounts : List Account} {addr : Addr} {amount : Nat}
  {proof : List String}

/-- The contract accepts what leads to the root. -/
theorem verifyProof_eq_ok_iff_leads (hhex : c.ReadsHex)
    (hroot : s.merkleRoot = getMerkleRoot c js accounts) :
    verifyProof c s addr amount proof = .ok () ↔ LeadsToRoot c js accounts addr amount proof := by
  unfold verifyProof LeadsToRoot
  simp only [bind_eq_ok, mapError_eq_ok, rejectIf_eq_ok, not_not, foldProof_eq_ok]
  rw [hroot]
  unfold getMerkleRoot
  dsimp only
  rw [removeHexPrefix_hexPrefix]
  cases hjs : js.getRoot (accounts.map (leafOf c)) with
  | none =>
      constructor
      · rintro ⟨_, -, root, hdecode, -⟩
        exact absurd hdecode (hhex.short root)
      · rintro ⟨_, -, hnone⟩
        cases hnone
  | some root =>
      simp only [Option.map_some, Option.getD_some, hhex.digest, Except.ok.injEq,
        exists_eq_left', Option.some.injEq]
      constructor
      · rintro ⟨_, ⟨siblings, hsiblings, rfl⟩, hsame⟩
        exact ⟨siblings, hsiblings, hsame⟩
      · rintro ⟨siblings, hsiblings, hsame⟩
        exact ⟨_, ⟨siblings, hsiblings, rfl⟩, hsame⟩

/-- The proof that the helper makes for an account leads to the root. -/
theorem getMerkleProof_leads (hhex : c.ReadsHex) (hjs : js.SortedPairs c)
    (haccount : ⟨addr, toString amount⟩ ∈ accounts) :
    LeadsToRoot c js accounts addr amount
      (getMerkleProof c js accounts ⟨addr, toString amount⟩) := by
  have hleaf : leafOf c ⟨addr, toString amount⟩ ∈ accounts.map (leafOf c) :=
    List.mem_map_of_mem haccount
  obtain ⟨t, -, hroot, hproofs⟩ := hjs.tree _ (List.ne_nil_of_mem hleaf)
  refine ⟨js.getProof (accounts.map (leafOf c)) (leafOf c ⟨addr, toString amount⟩), ?_, ?_⟩
  · -- the elements of the proof are the texts of the siblings
    unfold getMerkleProof Decodes
    rw [List.forall₂_map_left_iff, List.forall₂_same]
    intro digest _
    rw [removeHexPrefix_hexPrefix]
    exact hhex.digest digest
  · rw [hroot]
    have hfold := t.fold_of_mem_paths innerNode_unordered _ (hproofs _ hleaf)
    exact congrArg some hfold.symm

/-- `verify` and the contract agree on the proofs that do not lead to the root. The proofs that
the helper makes for the accounts of its list do. -/
theorem verify_agrees_iff (hhex : c.ReadsHex) (hjs : js.SortedPairs c)
    (hroot : s.merkleRoot = getMerkleRoot c js accounts) (toText : Bytes → String) :
    ((verify c js toText accounts proof ⟨addr, toString amount⟩ = .ok true ↔
        verifyProof c s addr amount proof = .ok ()) ↔
      ¬ LeadsToRoot c js accounts addr amount proof) ∧
    (⟨addr, toString amount⟩ ∈ accounts → LeadsToRoot c js accounts addr amount
      (getMerkleProof c js accounts ⟨addr, toString amount⟩)) := by
  refine ⟨?_, getMerkleProof_leads hhex hjs⟩
  have hfalse := @verify_ne_true c js toText accounts proof ⟨addr, toString amount⟩
  rw [verifyProof_eq_ok_iff_leads hhex hroot]
  constructor
  · intro hagrees hleads
    exact hfalse (hagrees.mpr hleads)
  · intro hnot
    exact ⟨fun h => absurd h hfalse, fun h => absurd h hnot⟩

end Agreement

/-! ### The packages as they are -/

theorem hexValue_hexDigit : ∀ n < 16, hexValue (hexDigit n) = some n := by decide

theorem utf8Size_hexDigit : ∀ n < 16, (hexDigit n).utf8Size = 1 := by decide

theorem hexBytes_hexText (bytes : Bytes) : ∀ index,
    hexBytes index (bytes.flatMap fun b => [hexDigit (b.toNat / 16), hexDigit (b.toNat % 16)]) =
      .ok bytes := by
  induction bytes with
  | nil => exact fun _ => rfl
  | cons b bytes ih =>
      intro index
      have hhigh : b.toNat / 16 < 16 := by
        have := b.toNat_lt
        omega
      have hlow : b.toNat % 16 < 16 := Nat.mod_lt _ (by decide)
      simp only [List.flatMap_cons, List.cons_append, List.nil_append, hexBytes, bind_eq_ok,
        okOr_eq_ok, hexValue_hexDigit _ hhigh, hexValue_hexDigit _ hlow, Option.some.injEq,
        exists_eq_left', ih, Except.ok.injEq]
      -- the two digits make up the byte again
      rw [Nat.div_add_mod', UInt8.ofNat_toNat]

theorem hexText_utf8ByteSize (bytes : Bytes) : (hexText bytes).utf8ByteSize = 2 * bytes.length := by
  unfold hexText
  rw [← String.size_toByteArray, String.toByteArray_ofList]
  induction bytes with
  | nil => rfl
  | cons b bytes ih =>
      have hhigh : b.toNat / 16 < 16 := by
        have := b.toNat_lt
        omega
      have hlow : b.toNat % 16 < 16 := Nat.mod_lt _ (by decide)
      have hdigit : ∀ n < 16, [hexDigit n].utf8Encode.size = 1 := by
        intro n hn
        rw [List.utf8Encode_singleton, List.size_toByteArray, String.length_utf8EncodeChar,
          utf8Size_hexDigit n hn]
      rw [List.flatMap_cons, List.utf8Encode_append, ByteArray.size_append, ih,
        List.utf8Encode_cons, ByteArray.size_append, hdigit _ hhigh, hdigit _ hlow,
        List.length_cons]
      omega

theorem codec_readsHex : codec.ReadsHex where
  digest d := by
    show decodeToSlice (hexText d.bytes) = .ok d
    unfold decodeToSlice
    rw [hexText_utf8ByteSize, d.length_eq, if_neg (by decide), if_neg (by decide)]
    unfold hexText
    rw [String.toList_ofList, hexBytes_hexText]
    show (if h : d.bytes.length = 32 then Except.ok (⟨d.bytes, h⟩ : Digest) else _) = _
    rw [dif_pos d.length_eq]
  short d := by
    have h : codec.decodeToSlice "" = .error .invalidStringLength := by decide
    rw [h]
    exact fun h => by cases h

/-- The next layer: the trees of a layer in pairs. -/
def pairUp : List (HashTree Digest) → List (HashTree Digest)
  | a :: b :: rest => .node a b :: pairUp rest
  | ts => ts

/-- The tree over the trees of a layer, after at most some number of layers. -/
def treeOf : Nat → List (HashTree Digest) → Option (HashTree Digest)
  | _, [] => none
  | _, [t] => some t
  | 0, _ => none
  | n + 1, ts => treeOf n (pairUp ts)

/-- The leaves in order. -/
def sortLeaves (leaves : List Digest) : List Digest :=
  leaves.insertionSort fun a b => a.bytes ≤ b.bytes

/-- The tree of the sorted leaves, when there are any. -/
def treeOfLeaves (leaves : List Digest) : Option (HashTree Digest) :=
  treeOf leaves.length ((sortLeaves leaves).map .leaf)

/-- `merkletreejs` with `sort: true` over SHA-256. -/
def merkleTreeJs : MerkleTreeJs where
  getRoot leaves := (treeOfLeaves leaves).map (HashTree.root (digestOf codec) innerNode Sum.inl)
  getProof leaves digest :=
    ((((treeOfLeaves leaves).map (HashTree.paths (digestOf codec) innerNode Sum.inl)).getD []).find?
      fun path => path.1 = digest).elim [] Prod.snd

theorem pairUp_leaves : ∀ ts, (pairUp ts).flatMap HashTree.leaves = ts.flatMap HashTree.leaves
  | [] => rfl
  | [_] => rfl
  | a :: b :: rest => by
      simp only [pairUp, List.flatMap_cons, HashTree.leaves, pairUp_leaves rest, List.append_assoc]

theorem pairUp_length : ∀ ts, (pairUp ts).length = (ts.length + 1) / 2
  | [] => rfl
  | [_] => by simp [pairUp]
  | a :: b :: rest => by
      simp only [pairUp, List.length_cons, pairUp_length rest]
      omega

theorem treeOf_leaves : ∀ (n : Nat) {ts : List (HashTree Digest)}, ts ≠ [] → ts.length ≤ n + 1 →
    ∃ t, treeOf n ts = some t ∧ t.leaves = ts.flatMap HashTree.leaves := by
  intro n
  induction n with
  | zero =>
      intro ts hne hlength
      match ts with
      | [t] => exact ⟨t, rfl, by simp⟩
  | succ n ih =>
      intro ts hne hlength
      match ts with
      | [t] => exact ⟨t, rfl, by simp⟩
      | a :: b :: rest =>
          have hshort : (pairUp (a :: b :: rest)).length ≤ n + 1 := by
            rw [pairUp_length]
            simp only [List.length_cons] at hlength ⊢
            omega
          obtain ⟨t, ht, hleaves⟩ := ih (List.cons_ne_nil _ _) hshort
          exact ⟨t, ht, hleaves.trans (pairUp_leaves (a :: b :: rest))⟩

theorem flatMap_leaf (leaves : List Digest) :
    (leaves.map HashTree.leaf).flatMap HashTree.leaves = leaves := by
  induction leaves with
  | nil => rfl
  | cons d leaves ih => rw [List.map_cons, List.flatMap_cons, ih]; rfl

theorem merkleTreeJs_sortedPairs : merkleTreeJs.SortedPairs codec where
  empty := rfl
  tree leaves hne := by
    have hperm : (sortLeaves leaves).Perm leaves := List.perm_insertionSort _ _
    have hlength : ((sortLeaves leaves).map HashTree.leaf).length ≤ leaves.length + 1 := by
      rw [List.length_map, hperm.length_eq]
      exact Nat.le_succ _
    have hne' : (sortLeaves leaves).map HashTree.leaf ≠ [] := by
      rw [ne_eq, List.map_eq_nil_iff]
      rintro hnil
      rw [hnil] at hperm
      exact hne hperm.symm.eq_nil
    obtain ⟨t, ht, hleaves⟩ := treeOf_leaves leaves.length hne' hlength
    rw [flatMap_leaf] at hleaves
    refine ⟨t, hleaves ▸ hperm, congrArg (Option.map _) ht, ?_⟩
    intro digest hdigest
    have hmem : digest ∈ (t.paths (digestOf codec) innerNode Sum.inl).map Prod.fst := by
      rw [HashTree.map_fst_paths, hleaves]
      exact hperm.mem_iff.mpr hdigest
    obtain ⟨path, hpath, hfst⟩ := List.mem_map.mp hmem
    have hproof : merkleTreeJs.getProof leaves digest =
        ((t.paths (digestOf codec) innerNode Sum.inl).find? fun path => path.1 = digest).elim []
          Prod.snd := by
      show ((((treeOfLeaves leaves).map _).getD []).find? _).elim [] Prod.snd = _
      unfold treeOfLeaves
      rw [ht]
      rfl
    rw [hproof]
    cases hfind : (t.paths (digestOf codec) innerNode Sum.inl).find?
        fun path => path.1 = digest with
    | none =>
        have hno := List.find?_eq_none.mp hfind path hpath
        simp [hfst] at hno
    | some found =>
        have hfound : found.1 = digest := by simpa using List.find?_some hfind
        have hin := List.mem_of_find?_eq_some hfind
        rw [← hfound]
        exact hin

/-- Two of the accounts of the tests. -/
def sampleAccounts : List Account :=
  [⟨sampleAccount, "100"⟩, ⟨"wasm1qzy8rg0f406uvvl54dlww6ptlh30303xq2u3xu", "10220"⟩]

/-- An airdrop with their root. -/
def sampleAirdrop : Storage :=
  { sampleStart.storage with merkleRoot := getMerkleRoot codec merkleTreeJs sampleAccounts }

/-- `toString()` of a buffer with ASCII text. -/
def asciiText (bytes : Bytes) : String := String.ofList (bytes.map fun b => Char.ofNat b.toNat)

/-- The proof that the helper makes for the first account. -/
def helperProof : List String :=
  getMerkleProof codec merkleTreeJs sampleAccounts ⟨sampleAccount, toString 100⟩

/-- For the amount of the first account its proof leads to the root, and `verify` and the
contract disagree. For another amount the same proof does not, and both reject it. -/
theorem verify_agrees_iff_sample :
    helperProof.length = 1 ∧
      ¬ (verify codec merkleTreeJs asciiText sampleAccounts helperProof
          ⟨sampleAccount, toString 100⟩ = .ok true ↔
        verifyProof codec sampleAirdrop sampleAccount 100 helperProof = .ok ()) ∧
      (verify codec merkleTreeJs asciiText sampleAccounts helperProof
          ⟨sampleAccount, toString 101⟩ = .ok true ↔
        verifyProof codec sampleAirdrop sampleAccount 101 helperProof = .ok ()) := by
  refine ⟨by decide +kernel, fun hagrees => ?_, ?_⟩
  · obtain ⟨hiff, hleads⟩ := @verify_agrees_iff codec merkleTreeJs sampleAirdrop sampleAccounts
      sampleAccount 100 helperProof codec_readsHex merkleTreeJs_sortedPairs rfl asciiText
    exact hiff.mp hagrees (hleads List.mem_cons_self)
  · refine (verify_agrees_iff codec_readsHex merkleTreeJs_sortedPairs rfl asciiText).1.mpr ?_
    rw [← @verifyProof_eq_ok_iff_leads codec merkleTreeJs sampleAirdrop _ _ _ _ codec_readsHex rfl]
    decide +kernel

/-- The contract accepts the proof that the helper makes for the first account, and `verify` does
not. -/
theorem accepted_but_not_verified :
    verifyProof codec sampleAirdrop sampleAccount 100
        (getMerkleProof codec merkleTreeJs sampleAccounts ⟨sampleAccount, toString 100⟩) = .ok () ∧
      ∀ toText, verify codec merkleTreeJs toText sampleAccounts
        (getMerkleProof codec merkleTreeJs sampleAccounts ⟨sampleAccount, toString 100⟩)
        ⟨sampleAccount, toString 100⟩ ≠ .ok true := by
  have hleads : LeadsToRoot codec merkleTreeJs sampleAccounts sampleAccount 100
      (getMerkleProof codec merkleTreeJs sampleAccounts ⟨sampleAccount, toString 100⟩) :=
    getMerkleProof_leads codec_readsHex merkleTreeJs_sortedPairs List.mem_cons_self
  exact ⟨(verifyProof_eq_ok_iff_leads codec_readsHex rfl).mpr hleads,
    fun toText => verify_ne_true toText _ _ _⟩

end NeutronTge.MerkleAirdrop
