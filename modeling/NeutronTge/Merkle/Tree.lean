import Mathlib.Data.List.Basic
import Mathlib.Data.List.Induction
import Mathlib.Data.Set.Function

/-!
# NeutronTge.Merkle.Tree

Merkle trees, and proofs that are a list of digests without directions. A digest is combined
with the next one of the proof in whatever order (`Unordered`), so a verifier does not learn on
which side a sibling is, nor how deep the leaf.

Completeness needs nothing of the hash. Soundness needs that among the strings that were hashed
in the tree and by the verifier no two have the same digest, and that no string that stands for
a leaf is one that stands for an inner node. The proof then is peeled off from its end: the last
digest of the fold is the root, so the digest before it is one of the children.
-/

namespace NeutronTge.Merkle

variable {A B D : Type}

/-- A binary tree with the data at its leaves. -/
inductive HashTree (A : Type)
  | leaf (data : A)
  | node (left right : HashTree A)
  deriving Repr, DecidableEq

namespace HashTree

/-- The data of the leaves, from left to right. -/
def leaves : HashTree A → List A
  | leaf data => [data]
  | node left right => left.leaves ++ right.leaves

end HashTree

/-! ### Digests

`encode` is the string that stands for the data of a leaf, and `pair` the string that stands for
an inner node. -/

section Digests

variable (hash : B → D) (pair : D → D → B) (encode : A → B)

namespace HashTree

/-- The hash of a tree: leaves are encoded and hashed, inner nodes hash the pair of their children.
-/
def root : HashTree A → D
  | leaf data => hash (encode data)
  | node left right => hash (pair left.root right.root)

/-- Everything that is hashed in the tree. -/
def inputs : HashTree A → List B
  | leaf data => [encode data]
  | node left right =>
      pair (left.root hash pair encode) (right.root hash pair encode) ::
        (left.inputs ++ right.inputs)

/-- Every leaf with the siblings on its way to the root. -/
def paths : HashTree A → List (A × List D)
  | leaf data => [(data, [])]
  | node left right =>
      (left.paths.map fun path => (path.1, path.2 ++ [right.root hash pair encode])) ++
        right.paths.map fun path => (path.1, path.2 ++ [left.root hash pair encode])

end HashTree

/-- The digest a verifier computes from the digest it starts with. -/
def fold (start : D) (proof : List D) : D := proof.foldl (fun h p => hash (pair h p)) start

/-- Everything that is hashed on the way. -/
def foldInputs : D → List D → List B
  | _, [] => []
  | h, p :: proof => pair h p :: foldInputs (hash (pair h p)) proof

end Digests

/-- Two digests as one string, without regard to their order. -/
structure Unordered (pair : D → D → B) : Prop where
  comm : ∀ a b, pair a b = pair b a
  inj : ∀ {a b c d}, pair a b = pair c d → a = c ∧ b = d ∨ a = d ∧ b = c

variable {hash : B → D} {pair : D → D → B} {encode : A → B}

@[simp] theorem fold_nil (start : D) : fold hash pair start [] = start := rfl

@[simp] theorem fold_append (start : D) (proof : List D) (p : D) :
    fold hash pair start (proof ++ [p]) = hash (pair (fold hash pair start proof) p) := by
  simp [fold]

/-- The last string that is hashed. -/
theorem foldInputs_append (p : D) : ∀ (proof : List D) (start : D),
    foldInputs hash pair start (proof ++ [p]) =
      foldInputs hash pair start proof ++ [pair (fold hash pair start proof) p] := by
  intro proof
  induction proof with
  | nil => intro start; rfl
  | cons q proof ih =>
      intro start
      simp only [List.cons_append, foldInputs]
      rw [ih]
      rfl

/-! ### Completeness -/

theorem HashTree.map_fst_paths (t : HashTree A) :
    (t.paths hash pair encode).map Prod.fst = t.leaves := by
  induction t with
  | leaf data => rfl
  | node left right ihl ihr =>
      simp only [HashTree.paths, HashTree.leaves, List.map_append, List.map_map]
      rw [← ihl, ← ihr]
      rfl

/-- The siblings of a leaf lead to the root. -/
theorem HashTree.fold_of_mem_paths (hpair : Unordered pair) (t : HashTree A) :
    ∀ path ∈ t.paths hash pair encode,
      fold hash pair (hash (encode path.1)) path.2 = t.root hash pair encode := by
  induction t with
  | leaf data =>
      intro path hpath
      obtain rfl := List.mem_singleton.mp hpath
      rfl
  | node left right ihl ihr =>
      intro path hpath
      simp only [HashTree.paths, List.mem_append, List.mem_map] at hpath
      rcases hpath with ⟨path', hpath', rfl⟩ | ⟨path', hpath', rfl⟩
      · simp [ihl path' hpath', HashTree.root]
      · simp [ihr path' hpath', HashTree.root, hpair.comm (right.root hash pair encode)]

/-- What is hashed for an honest proof is hashed in the tree. -/
theorem HashTree.foldInputs_of_mem_paths (hpair : Unordered pair) (t : HashTree A) :
    ∀ path ∈ t.paths hash pair encode,
      encode path.1 ∈ t.inputs hash pair encode ∧
      ∀ b ∈ foldInputs hash pair (hash (encode path.1)) path.2,
        b ∈ t.inputs hash pair encode := by
  induction t with
  | leaf data =>
      intro path hpath
      obtain rfl := List.mem_singleton.mp hpath
      simp [HashTree.inputs, foldInputs]
  | node left right ihl ihr =>
      intro path hpath
      simp only [HashTree.paths, List.mem_append, List.mem_map] at hpath
      simp only [HashTree.inputs, List.mem_cons, List.mem_append]
      rcases hpath with ⟨path', hpath', rfl⟩ | ⟨path', hpath', rfl⟩
      · obtain ⟨hleaf, hfold⟩ := ihl path' hpath'
        refine ⟨Or.inr (Or.inl hleaf), fun b hb => ?_⟩
        simp only [foldInputs_append, List.mem_append, List.mem_singleton] at hb
        rcases hb with hb | rfl
        · exact Or.inr (Or.inl (hfold b hb))
        · exact Or.inl (by rw [left.fold_of_mem_paths hpair path' hpath'])
      · obtain ⟨hleaf, hfold⟩ := ihr path' hpath'
        refine ⟨Or.inr (Or.inr hleaf), fun b hb => ?_⟩
        simp only [foldInputs_append, List.mem_append, List.mem_singleton] at hb
        rcases hb with hb | rfl
        · exact Or.inr (Or.inr (hfold b hb))
        · exact Or.inl (by rw [right.fold_of_mem_paths hpair path' hpath', hpair.comm])

/-! ### Soundness -/

/-- A string whose digest the verifier takes to the root of a tree stands for a leaf. The
induction is on the proof from its end, with one subtree of the tree for the rest. -/
theorem HashTree.mem_leaves_of_fold (hpair : Unordered pair) {strings : Set B}
    (hcollision : Set.InjOn hash strings) {data : B} (hdata : data ∈ strings)
    (hunpaired : ∀ a b, data ≠ pair a b) {proof : List D} :
    ∀ {t : HashTree A}, (∀ b ∈ t.inputs hash pair encode, b ∈ strings) →
      (∀ leaf ∈ t.leaves, ∀ c d, encode leaf ≠ pair c d) →
      (∀ b ∈ foldInputs hash pair (hash data) proof, b ∈ strings) →
      fold hash pair (hash data) proof = t.root hash pair encode →
      ∃ leaf ∈ t.leaves, encode leaf = data := by
  induction proof using List.reverseRecOn with
  | nil =>
      intro t htree hleaves _ hfold
      cases t with
      | leaf other =>
          have hsame := hcollision hdata (htree (encode other) (by simp [HashTree.inputs])) hfold
          exact ⟨other, by simp [HashTree.leaves], hsame.symm⟩
      | node left right =>
          -- the claimed string would be an inner node
          exact absurd (hcollision hdata (htree _ (by simp [HashTree.inputs])) hfold)
            (hunpaired _ _)
  | append_singleton proof p ih =>
      intro t htree hleaves hproof hfold
      rw [fold_append] at hfold
      rw [foldInputs_append] at hproof
      have hlast := hproof (pair (fold hash pair (hash data) proof) p) (by simp)
      have hrest : ∀ b ∈ foldInputs hash pair (hash data) proof, b ∈ strings :=
        fun b hb => hproof b (List.mem_append_left _ hb)
      cases t with
      | leaf other =>
          have hsame := hcollision hlast (htree (encode other) (by simp [HashTree.inputs])) hfold
          exact absurd hsame.symm (hleaves other (by simp [HashTree.leaves]) _ _)
      | node left right =>
          have hsame := hcollision hlast (htree _ (by simp [HashTree.inputs])) hfold
          simp only [HashTree.inputs, List.mem_cons, List.mem_append] at htree
          simp only [HashTree.leaves, List.mem_append] at hleaves ⊢
          rcases hpair.inj hsame with ⟨hleft, -⟩ | ⟨hright, -⟩
          · obtain ⟨leaf, hleaf, hdata⟩ := ih (fun b hb => htree b (Or.inr (Or.inl hb)))
              (fun b hb => hleaves b (Or.inl hb)) hrest hleft
            exact ⟨leaf, Or.inl hleaf, hdata⟩
          · obtain ⟨leaf, hleaf, hdata⟩ := ih (fun b hb => htree b (Or.inr (Or.inr hb)))
              (fun b hb => hleaves b (Or.inr hb)) hrest hright
            exact ⟨leaf, Or.inr hleaf, hdata⟩

end NeutronTge.Merkle
