import Mathlib.Data.List.Sort
import NeutronTge.CosmWasm.Storage

/-!
# NeutronTge.CosmWasm.Paging

Lists that are read page by page. Each page holds the next entries after the last one of the
page before (`page`), and a reader walks from page to page (`walk`). The list may change between
two pages, as long as it is always sorted: nothing is read twice (`walk_sorted`), and a walk that
ended with a page that was not full has read every entry that was there all along (`mem_walk`).
Where nothing changes, the pages put together are the list (`walk_replicate`). The entries of a
storage map are such a list (`Map.range`).
-/

namespace NeutronTge.CosmWasm

section Pages

variable {α κ : Type} (key : α → κ) (r : κ → κ → Prop) [DecidableRel r] (limit : Nat)

/-- The entries come one after the other. -/
abbrev Sorted (xs : List α) : Prop := xs.Pairwise fun x y => r (key x) (key y)

/-- `k` comes after the place where a reader is. -/
def Beyond (after : Option κ) (k : κ) : Prop := ∀ a ∈ after, r a k

/-- The first `limit` entries after a place. -/
def page (after : Option κ) (xs : List α) : List α :=
  (xs.filter fun x => after.all fun a => r a (key x)).take limit

/-- Where a page ends; an empty one ends where it begins. -/
def pageEnd (after : Option κ) (p : List α) : Option κ := (p.getLast?.map key).or after

/-- The pages of a reader who finds one list after the other. -/
def walk : Option κ → List (List α) → List (List α)
  | _, [] => []
  | after, xs :: xss =>
      page key r limit after xs :: walk (pageEnd key after (page key r limit after xs)) xss

variable {key r limit} {after : Option κ} {xs : List α} {xss : List (List α)} {x y : α} {k : κ}

theorem mem_filter_beyond :
    x ∈ (xs.filter fun x => after.all fun a => r a (key x)) ↔ x ∈ xs ∧ Beyond r after (key x) := by
  rw [List.mem_filter, Option.all_eq_true]
  simp [Beyond]

theorem mem_page (h : x ∈ page key r limit after xs) : x ∈ xs ∧ Beyond r after (key x) :=
  mem_filter_beyond.mp (List.mem_of_mem_take h)

theorem sorted_page (h : Sorted key r xs) : Sorted key r (page key r limit after xs) :=
  (h.filter _).sublist (List.take_sublist _ _)

omit [DecidableRel r] in
/-- A page ends at its last entry, which comes after all others. -/
theorem sorted_last (after : Option κ) {p : List α} (h : Sorted key r p) (hx : x ∈ p) :
    ∃ l ∈ p, pageEnd key after p = some (key l) ∧ (x = l ∨ r (key x) (key l)) := by
  obtain ⟨ys, l, rfl⟩ := (List.eq_nil_or_concat p).resolve_left (List.ne_nil_of_mem hx)
  rw [List.concat_eq_append] at h hx ⊢
  refine ⟨l, by simp, by simp [pageEnd], ?_⟩
  rcases List.mem_append.mp hx with hx | hx
  · exact Or.inr ((List.pairwise_append.mp h).2.2 x hx l (List.mem_singleton_self l))
  · exact Or.inl (List.mem_singleton.mp hx)

/-! ### Lists that change -/

/-- What is beyond the end of a page is beyond its beginning and its entries. -/
theorem beyond_pageEnd [IsTrans κ r] (hsorted : Sorted key r xs)
    (h : Beyond r (pageEnd key after (page key r limit after xs)) k) :
    Beyond r after k ∧ ∀ x ∈ page key r limit after xs, r (key x) k := by
  have hall : ∀ x ∈ page key r limit after xs, r (key x) k := by
    intro x hx
    obtain ⟨l, -, hend, hle⟩ := sorted_last after (sorted_page hsorted) hx
    have hl : r (key l) k := h _ hend
    rcases hle with rfl | hlt
    · exact hl
    · exact trans_of r hlt hl
  refine ⟨?_, hall⟩
  cases hpage : page key r limit after xs with
  | nil =>
      rw [hpage] at h
      exact h
  | cons z zs =>
      have hz : z ∈ page key r limit after xs := hpage ▸ List.mem_cons_self
      exact fun a ha => trans_of r ((mem_page hz).2 a ha) (hall z hz)

/-- Nothing is read twice: the entries of a walk come one after the other. -/
theorem walk_sorted [IsTrans κ r] : ∀ {xss : List (List α)}, (∀ xs ∈ xss, Sorted key r xs) →
    ∀ after, Sorted key r (walk key r limit after xss).flatten ∧
      ∀ x ∈ (walk key r limit after xss).flatten, Beyond r after (key x) := by
  intro xss
  induction xss with
  | nil => exact fun _ after => ⟨.nil, fun x hx => by cases hx⟩
  | cons xs xss ih =>
      intro hsorted after
      have hxs : Sorted key r xs := hsorted xs List.mem_cons_self
      obtain ⟨hrest, hbeyond⟩ := ih (fun ys hys => hsorted ys (List.mem_cons_of_mem _ hys))
        (pageEnd key after (page key r limit after xs))
      rw [walk, List.flatten_cons]
      refine ⟨List.pairwise_append.mpr ⟨sorted_page hxs, hrest, fun x hx y hy =>
        (beyond_pageEnd hxs (hbeyond y hy)).2 x hx⟩, fun x hx => ?_⟩
      rcases List.mem_append.mp hx with hx | hx
      · exact (mem_page hx).2
      · exact (beyond_pageEnd hxs (hbeyond x hx)).1

/-- What is beyond a place is on the page after it, unless the page is full and ends before. -/
theorem mem_page_or (hsorted : Sorted key r xs) (hx : x ∈ xs) (hbeyond : Beyond r after (key x)) :
    x ∈ page key r limit after xs ∨ (page key r limit after xs).length = limit ∧
      Beyond r (pageEnd key after (page key r limit after xs)) (key x) := by
  have hfilter := mem_filter_beyond.mpr ⟨hx, hbeyond⟩
  have hsplit : page key r limit after xs ++
      (xs.filter fun x => after.all fun a => r a (key x)).drop limit =
        xs.filter fun x => after.all fun a => r a (key x) := List.take_append_drop limit _
  rw [← hsplit] at hfilter
  rcases List.mem_append.mp hfilter with hread | hleft
  · exact Or.inl hread
  · have hlong := List.length_pos_of_mem hleft
    rw [List.length_drop] at hlong
    refine Or.inr ⟨List.length_take_of_le (by omega), fun a ha => ?_⟩
    have hbefore := (List.pairwise_append.mp (hsplit ▸ hsorted.filter _)).2.2
    rcases Option.or_eq_some_iff.mp ha with hend | ⟨-, hafter⟩
    · obtain ⟨l, hl, rfl⟩ := Option.map_eq_some_iff.mp hend
      exact hbefore l (List.mem_of_getLast? hl) x hleft
    · exact hbeyond a hafter

/-- A walk that ended with a page that was not full has read what was always there. -/
theorem mem_walk {p : List α} : ∀ {xss : List (List α)}, (∀ xs ∈ xss, Sorted key r xs) →
    ∀ {after}, Beyond r after k → (∀ xs ∈ xss, ∃ x ∈ xs, key x = k) →
      (walk key r limit after xss).getLast? = some p → p.length < limit →
        ∃ x ∈ (walk key r limit after xss).flatten, key x = k := by
  intro xss
  induction xss with
  | nil =>
      intro _ _ _ _ hlast
      cases hlast
  | cons xs xss ih =>
      intro hsorted after hbeyond hthere hlast hshort
      obtain ⟨x, hx, rfl⟩ := hthere xs List.mem_cons_self
      rw [walk, List.flatten_cons]
      rw [walk] at hlast
      rcases mem_page_or (hsorted xs List.mem_cons_self) hx hbeyond with hread | ⟨hfull, hnext⟩
      · exact ⟨x, List.mem_append_left _ hread, rfl⟩
      · -- the page was full, so it was not the last one
        cases hrest : walk key r limit (pageEnd key after (page key r limit after xs)) xss with
        | nil =>
            rw [hrest, List.getLast?_singleton] at hlast
            obtain rfl := Option.some.inj hlast
            exact absurd hfull hshort.ne
        | cons p' ps =>
            rw [hrest, List.getLast?_cons_cons, ← hrest] at hlast
            obtain ⟨y, hy, hkey⟩ := ih (fun ys hys => hsorted ys (List.mem_cons_of_mem _ hys)) hnext
              (fun ys hys => hthere ys (List.mem_cons_of_mem _ hys)) hlast hshort
            exact ⟨y, List.mem_append_right _ (hrest ▸ hy), hkey⟩

/-! ### A list that does not change -/

/-- What is left of a list after a page. -/
theorem filter_pageEnd [IsStrictOrder κ r] (hsorted : Sorted key r xs) (after : Option κ) :
    (xs.filter fun x => (pageEnd key after (page key r limit after xs)).all fun a => r a (key x)) =
      (xs.filter fun x => after.all fun a => r a (key x)).drop limit := by
  have hsplit : page key r limit after xs ++
      (xs.filter fun x => after.all fun a => r a (key x)).drop limit =
        xs.filter fun x => after.all fun a => r a (key x) := List.take_append_drop limit _
  have hbefore := (List.pairwise_append.mp (hsplit ▸ hsorted.filter _)).2.2
  cases hpage : page key r limit after xs with
  | nil =>
      rw [hpage, List.nil_append] at hsplit
      rw [hsplit]
      rfl
  | cons z zs =>
      have hz : z ∈ page key r limit after xs := hpage ▸ List.mem_cons_self
      obtain ⟨l, hl, hend, -⟩ := sorted_last after (sorted_page hsorted) hz
      -- beyond the last entry of the page is less than beyond its beginning
      have hless : (xs.filter fun x => decide (r (key l) (key x))) =
          ((xs.filter fun x => after.all fun a => r a (key x)).filter fun x =>
            decide (r (key l) (key x))) := by
        rw [List.filter_filter]
        refine List.filter_congr fun x hx => ?_
        by_cases hlx : r (key l) (key x)
        · have hbeyond : Beyond r after (key x) := fun a ha =>
            trans_of r ((mem_page hl).2 a ha) hlx
          simp [hlx, (mem_filter_beyond.mpr ⟨hx, hbeyond⟩ |> List.mem_filter.mp).2]
        · simp [hlx]
      have hread : ((page key r limit after xs).filter fun x =>
          decide (r (key l) (key x))) = [] := by
        rw [List.filter_eq_nil_iff]
        intro x hx
        rw [decide_eq_true_eq]
        obtain ⟨l', -, hend', hle⟩ := sorted_last after (sorted_page hsorted) hx
        rw [hend] at hend'
        rcases hle with rfl | hlt
        · rw [Option.some.inj hend']
          exact irrefl_of r _
        · rw [← Option.some.inj hend'] at hlt
          exact fun h => irrefl_of r _ (trans_of r h hlt)
      rw [← hpage, hend]
      show (xs.filter fun x => decide (r (key l) (key x))) = _
      rw [hless]
      nth_rewrite 1 [← hsplit]
      rw [List.filter_append, hread, List.nil_append, List.filter_eq_self]
      exact fun y hy => decide_eq_true (hbefore l hl y hy)

/-- The pages of a list that does not change are the list. -/
theorem walk_replicate [IsStrictOrder κ r] (hsorted : Sorted key r xs) (n : Nat) :
    ∀ after, (walk key r limit after (List.replicate n xs)).flatten =
      (xs.filter fun x => after.all fun a => r a (key x)).take (n * limit) := by
  induction n with
  | zero =>
      intro after
      rw [Nat.zero_mul, List.take_zero]
      rfl
  | succ n ih =>
      intro after
      rw [List.replicate_succ, walk, List.flatten_cons, ih, filter_pageEnd hsorted, Nat.succ_mul,
        Nat.add_comm, List.take_add]
      rfl

end Pages

/-! ### Storage maps -/

/-- The order of a range. -/
inductive Order
  | ascending
  | descending
  deriving Repr, DecidableEq

/-- `k` comes before `k'`. -/
def Order.Before {K : Type} [LinearOrder K] : Order → K → K → Prop
  | .ascending, k, k' => k < k'
  | .descending, k, k' => k' < k

section Range

variable {K V : Type} [LinearOrder K] {order : Order}

instance Order.decidableBefore : DecidableRel (order.Before (K := K)) := fun k k' =>
  match order with
  | .ascending => inferInstanceAs (Decidable (k < k'))
  | .descending => inferInstanceAs (Decidable (k' < k))

instance Order.isStrictOrder : IsStrictOrder K order.Before where
  irrefl k := by cases order <;> exact lt_irrefl k
  trans a b c h h' := by
    cases order with
    | ascending => exact lt_trans h h'
    | descending => exact lt_trans h' h

/-- `range` with exclusive bounds. -/
def Map.range (m : Map K V) (start stop : Option K) (order : Order) : List (K × V) :=
  let entries := (m.entries.map fun e => (e.1, e.2)).insertionSort fun x y => x.1 ≤ y.1
  let inside := entries.filter fun x => start.all (fun a => a < x.1) && stop.all fun b => x.1 < b
  match order with
  | .ascending => inside
  | .descending => inside.reverse

/-- All entries in order. -/
def Map.inOrder (m : Map K V) (order : Order) : List (K × V) := m.range none none order

theorem Map.mem_inOrder [DecidableEq K] {m : Map K V} {k : K} {v : V} :
    (k, v) ∈ m.inOrder order ↔ m.mayLoad k = some v := by
  have hmem : (k, v) ∈ m.inOrder order ↔ (⟨k, v⟩ : Sigma fun _ : K => V) ∈ m.entries := by
    cases order <;> simp [Map.inOrder, Map.range, Sigma.exists]
  rw [hmem, Map.mem_entries_iff]

theorem Map.sorted_inOrder (m : Map K V) : Sorted Prod.fst order.Before (m.inOrder order) := by
  have hascending : Sorted Prod.fst (Order.Before .ascending) (m.inOrder .ascending) := by
    refine List.Pairwise.filter _ ?_
    have hle := List.pairwise_insertionSort (fun x y : K × V => x.1 ≤ y.1)
      (m.entries.map fun e => (e.1, e.2))
    have hne : ((m.entries.map fun e => (e.1, e.2)).insertionSort
        fun x y : K × V => x.1 ≤ y.1).Pairwise fun x y => x.1 ≠ y.1 := by
      rw [(List.perm_insertionSort _ _).pairwise_iff fun h => h.symm, List.pairwise_map]
      exact List.pairwise_map.mp m.nodupKeys
    exact (hle.and hne).imp fun h => lt_of_le_of_ne h.1 h.2
  cases order with
  | ascending => exact hascending
  | descending => exact List.pairwise_reverse.mpr hascending

/-- A range that begins after a key is a page of all entries. -/
theorem Map.range_ascending (m : Map K V) (start : Option K) (limit : Nat) :
    (m.range start none .ascending).take limit =
      page Prod.fst (Order.Before .ascending) limit start (m.inOrder .ascending) := by
  unfold page Map.inOrder Map.range
  simp only [Option.all_none, Bool.and_true, List.filter_true]
  rfl

theorem Map.range_descending (m : Map K V) (stop : Option K) (limit : Nat) :
    (m.range none stop .descending).take limit =
      page Prod.fst (Order.Before .descending) limit stop (m.inOrder .descending) := by
  unfold page Map.inOrder Map.range
  simp only [Option.all_none, Bool.and_true, List.filter_true, Bool.true_and, List.filter_reverse]
  rfl

end Range

end NeutronTge.CosmWasm
