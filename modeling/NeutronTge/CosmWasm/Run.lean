import NeutronTge.CosmWasm.Outcome

/-!
# NeutronTge.CosmWasm.Run

Runs of a contract. `exec` executes one transaction; when it fails the chain keeps
the state the transaction started from (`commit`), and a run commits a list of
transactions one after the other. An invariant of a contract is proved once for a
single successful transaction, and `run_invariant` carries it to every state a run
reaches. `Along` says that a condition holds at each transaction of a run, in the
state that transaction is executed in. `Appends` says what a step adds to a trace.
-/

namespace NeutronTge.CosmWasm

variable {S A ε : Type} (exec : S → A → Except ε S)

/-- Execute one transaction; a failed one changes nothing. -/
def commit (s : S) (a : A) : S :=
  match exec s a with
  | .ok s' => s'
  | .error _ => s

/-- Execute the transactions in order. -/
def run (s : S) (as : List A) : S := as.foldl (commit exec) s

/-- `P` holds at every transaction of the run. -/
def Along (P : S → A → Prop) : S → List A → Prop
  | _, [] => True
  | s, a :: as => P s a ∧ Along P (commit exec s a) as

@[simp] theorem run_nil (s : S) : run exec s [] = s := rfl

@[simp] theorem run_cons (s : S) (a : A) (as : List A) :
    run exec s (a :: as) = run exec (commit exec s a) as := rfl

theorem run_append (s : S) (as bs : List A) :
    run exec s (as ++ bs) = run exec (run exec s as) bs :=
  List.foldl_append

/-- A committed transaction either succeeded or left the state alone. -/
theorem commit_cases (s : S) (a : A) :
    exec s a = .ok (commit exec s a) ∨ commit exec s a = s := by
  unfold commit
  cases exec s a with
  | ok s' => exact Or.inl rfl
  | error e => exact Or.inr rfl

theorem commit_of_ok {s s' : S} {a : A} (h : exec s a = .ok s') : commit exec s a = s' := by
  simp [commit, h]

theorem ok_of_isOk {s : S} {a : A} (h : (exec s a).isOk = true) :
    exec s a = .ok (commit exec s a) := by
  cases hexec : exec s a with
  | error e =>
      rw [hexec] at h
      cases h
  | ok t => rw [commit_of_ok exec hexec]

/-- When every transaction succeeds, the run is the sequence of their results. -/
theorem foldlM_eq_run : ∀ {as : List A} {s : S}, (as.foldlM exec s).isOk = true →
    as.foldlM exec s = .ok (run exec s as) := by
  intro as
  induction as with
  | nil => intro s _; rfl
  | cons a as ih =>
      intro s h
      rw [List.foldlM_cons] at h ⊢
      rw [run_cons]
      cases hexec : exec s a with
      | error e =>
          rw [hexec] at h
          cases h
      | ok t =>
          rw [hexec] at h
          rw [commit_of_ok exec hexec]
          exact ih h

theorem along_append {P : S → A → Prop} {as bs : List A} : ∀ {s : S},
    Along exec P s (as ++ bs) ↔ Along exec P s as ∧ Along exec P (run exec s as) bs := by
  induction as with
  | nil => intro s; simp [Along]
  | cons a as ih =>
      intro s
      rw [List.cons_append, run_cons]
      simp only [Along, ih, and_assoc]

/-- A condition on the transactions alone. -/
theorem along_of_forall {Q : A → Prop} {as : List A} : ∀ {s : S}, (∀ a ∈ as, Q a) →
    Along exec (fun _ a => Q a) s as := by
  induction as with
  | nil => intro s _; trivial
  | cons a as ih =>
      intro s h
      exact ⟨h a List.mem_cons_self, ih fun b hb => h b (List.mem_cons_of_mem a hb)⟩

theorem along_and {P Q : S → A → Prop} {as : List A} : ∀ {s : S},
    Along exec (fun t a => P t a ∧ Q t a) s as ↔ Along exec P s as ∧ Along exec Q s as := by
  induction as with
  | nil => intro s; simp [Along]
  | cons a as ih =>
      intro s
      simp only [Along, ih]
      tauto

variable {exec}

/-- What every successful transaction that meets `P` preserves holds after every run
whose transactions all meet `P`. -/
theorem run_invariant_along {P : S → A → Prop} (Inv : S → Prop)
    (hstep : ∀ s a s', Inv s → P s a → exec s a = .ok s' → Inv s') :
    ∀ {as : List A} {s : S}, Inv s → Along exec P s as → Inv (run exec s as) := by
  intro as
  induction as with
  | nil => intro s hs _; exact hs
  | cons a as ih =>
      intro s hs hP
      obtain ⟨ha, hrest⟩ := hP
      rw [run_cons]
      refine ih ?_ hrest
      rcases commit_cases exec s a with hok | hsame
      · exact hstep s a _ hs ha hok
      · rw [hsame]
        exact hs

theorem along_true : ∀ {as : List A} {s : S}, Along exec (fun _ _ => True) s as := by
  intro as
  induction as with
  | nil => intro s; trivial
  | cons a as ih => intro s; exact ⟨trivial, ih⟩

/-- What every successful transaction preserves holds after every run. -/
theorem run_invariant (Inv : S → Prop)
    (hstep : ∀ s a s', Inv s → exec s a = .ok s' → Inv s') {as : List A} {s : S}
    (hs : Inv s) : Inv (run exec s as) :=
  run_invariant_along Inv (fun s a s' h _ => hstep s a s' h) hs along_true

/-- A reflexive and transitive relation that every successful transaction of an
invariant state establishes holds between the two ends of a run. -/
theorem run_relation_along {P : S → A → Prop} (Inv : S → Prop) (R : S → S → Prop)
    (hrefl : ∀ s, R s s) (htrans : ∀ s t u, R s t → R t u → R s u)
    (hinv : ∀ s a s', Inv s → P s a → exec s a = .ok s' → Inv s')
    (hstep : ∀ s a s', Inv s → P s a → exec s a = .ok s' → R s s')
    {as : List A} {s : S} (hs : Inv s) (hP : Along exec P s as) : R s (run exec s as) := by
  have hboth : Inv (run exec s as) ∧ R s (run exec s as) :=
    run_invariant_along (fun t => Inv t ∧ R s t)
      (fun t a t' ht ha hok =>
        ⟨hinv t a t' ht.1 ha hok, htrans s t t' ht.2 (hstep t a t' ht.1 ha hok)⟩)
      ⟨hs, hrefl s⟩ hP
  exact hboth.2

/-- A run that makes something true has a transaction that made it true first. -/
theorem run_first {P : S → Prop} : ∀ {as : List A} {s : S}, ¬ P s → P (run exec s as) →
    ∃ before a after s', as = before ++ a :: after ∧ ¬ P (run exec s before) ∧
      exec (run exec s before) a = .ok s' ∧ P s' ∧ run exec s as = run exec s' after := by
  intro as
  induction as with
  | nil => exact fun hs h => absurd h hs
  | cons a as ih =>
      intro s hs h
      rw [run_cons] at h
      rcases commit_cases exec s a with hok | hsame
      · by_cases hfirst : P (commit exec s a)
        · exact ⟨[], a, as, commit exec s a, rfl, hs, hok, hfirst, run_cons ..⟩
        · obtain ⟨before, b, after, s', rfl, hbefore, hexec, hs', hafter⟩ := ih hfirst h
          exact ⟨a :: before, b, after, s', rfl, hbefore, hexec, hs', hafter⟩
      · rw [hsame] at h
        obtain ⟨before, b, after, s', rfl, hbefore, hexec, hs', hafter⟩ := ih hs h
        refine ⟨a :: before, b, after, s', rfl, ?_, ?_, hs', ?_⟩
        · rw [run_cons, hsame]
          exact hbefore
        · rw [run_cons, hsame]
          exact hexec
        · rw [run_cons, hsame]
          exact hafter

/-! ### Histories -/

section History

variable {B : Type}

variable (exec) in
/-- What is known after a run of all it did: `f` takes down what a successful transaction
adds. -/
def history (f : S → A → S → B → B) : S → B → List A → B
  | _, b, [] => b
  | s, b, a :: as =>
      match exec s a with
      | .ok s' => history f s' (f s a s' b) as
      | .error _ => history f s b as

variable {f : S → A → S → B → B}

theorem history_append {as bs : List A} : ∀ {s : S} {b : B},
    history exec f s b (as ++ bs) = history exec f (run exec s as) (history exec f s b as) bs := by
  induction as with
  | nil => intro s b; rfl
  | cons a as ih =>
      intro s b
      rw [List.cons_append, run_cons]
      cases hexec : exec s a with
      | ok s' =>
          simp only [history, commit, hexec]
          exact ih
      | error e =>
          simp only [history, commit, hexec]
          exact ih

/-- The last transaction of a run. -/
theorem history_snoc {s s' : S} {b : B} {as : List A} {a : A}
    (h : exec (run exec s as) a = .ok s') :
    history exec f s b (as ++ [a]) = f (run exec s as) a s' (history exec f s b as) := by
  rw [history_append]
  simp only [history, h]

/-- What every successful transaction that meets `P` preserves, together with what is taken
down of it. -/
theorem history_invariant_along {P : S → A → Prop} (Inv : S → B → Prop)
    (hstep : ∀ s a s' b, Inv s b → P s a → exec s a = .ok s' → Inv s' (f s a s' b)) :
    ∀ {as : List A} {s : S} {b : B}, Inv s b → Along exec P s as →
      Inv (run exec s as) (history exec f s b as) := by
  intro as
  induction as with
  | nil => intro s b hs _; exact hs
  | cons a as ih =>
      intro s b hs hP
      obtain ⟨ha, hrest⟩ := hP
      rw [run_cons]
      unfold history
      unfold commit at hrest ⊢
      cases hexec : exec s a with
      | ok s' =>
          rw [hexec] at hrest
          exact ih (hstep s a s' b hs ha hexec) hrest
      | error e =>
          rw [hexec] at hrest
          exact ih hs hrest

theorem history_invariant (Inv : S → B → Prop)
    (hstep : ∀ s a s' b, Inv s b → exec s a = .ok s' → Inv s' (f s a s' b)) {as : List A}
    {s : S} {b : B} (hs : Inv s b) : Inv (run exec s as) (history exec f s b as) :=
  history_invariant_along Inv (fun s a s' b h _ => hstep s a s' b h) hs along_true

end History

/-! ### Traces -/

section Traces

variable {α : Type} {P Q : α → Prop} {t u v new : List α}

/-- A trace grew, and everything that was added meets `P`. -/
def Appends (P : α → Prop) (t u : List α) : Prop :=
  ∃ new, u = t ++ new ∧ ∀ e ∈ new, P e

namespace Appends

theorem refl (t : List α) : Appends P t t := ⟨[], by simp, by simp⟩

theorem trans (h : Appends P t u) (h' : Appends P u v) : Appends P t v := by
  obtain ⟨new, rfl, hnew⟩ := h
  obtain ⟨new', rfl, hnew'⟩ := h'
  refine ⟨new ++ new', List.append_assoc _ _ _, ?_⟩
  intro e he
  rcases List.mem_append.mp he with he | he
  · exact hnew e he
  · exact hnew' e he

theorem mono (h : Appends P t u) (hPQ : ∀ e, P e → Q e) : Appends Q t u := by
  obtain ⟨new, rfl, hnew⟩ := h
  exact ⟨new, rfl, fun e he => hPQ e (hnew e he)⟩

theorem of_eq (h : u = t) : Appends P t u := by
  rw [h]
  exact .refl t

end Appends

end Traces

end NeutronTge.CosmWasm
