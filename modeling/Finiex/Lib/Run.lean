import Mathlib.Data.List.Basic

/-!
# Runs of fallible machines

A machine whose step may fail, the runs it makes over a list of inputs, and the
rules that carry a fact about one step to a fact about every run.
-/

namespace Finiex.Lib.Run

variable {ε σ ι α β : Type}

/-- A sequenced computation succeeds when both of its parts do. -/
theorem bind_eq_ok {x : Except ε α} {f : α → Except ε β} {b : β} :
    x >>= f = .ok b ↔ ∃ a, x = .ok a ∧ f a = .ok b := by
  cases x with
  | error e => simp [bind, Except.bind]
  | ok a => simp [bind, Except.bind]

theorem pure_eq_ok {a b : α} : (pure a : Except ε α) = .ok b ↔ a = b := by
  simp [pure, Except.pure]

theorem map_eq_ok {x : Except ε α} {f : α → β} {b : β} :
    f <$> x = .ok b ↔ ∃ a, x = .ok a ∧ f a = b := by
  cases x with
  | error e => simp [Functor.map, Except.map]
  | ok a => simp [Functor.map, Except.map]

/-- A computation succeeds when a projection of its result does. -/
theorem exists_of_map_eq_ok {x : Except ε α} {f : α → β} {b : β} (h : x.map f = .ok b) :
    ∃ a, x = .ok a ∧ f a = b := by
  cases x with
  | error e => cases h
  | ok a => exact ⟨a, rfl, Except.ok.inj h⟩

section Loop

variable {f : σ → α → Except ε σ}

theorem foldlM_cons_eq_ok {s t : σ} {x : α} {xs : List α} :
    List.foldlM f s (x :: xs) = .ok t ↔ ∃ s', f s x = .ok s' ∧ List.foldlM f s' xs = .ok t := by
  rw [List.foldlM_cons, bind_eq_ok]

/-- Loop rule: an invariant of the elements still to visit and the state holds,
with nothing left to visit, once the loop is over. -/
theorem foldlM_induct {P : List α → σ → Prop}
    (hstep : ∀ x xs s s', P (x :: xs) s → f s x = .ok s' → P xs s')
    {xs : List α} {s t : σ} (hinit : P xs s) (hrun : List.foldlM f s xs = .ok t) :
    P [] t := by
  induction xs generalizing s with
  | nil =>
      cases hrun
      exact hinit
  | cons x xs ih =>
      obtain ⟨s', hx, hxs⟩ := foldlM_cons_eq_ok.mp hrun
      exact ih (hstep x xs s s' hinit hx) hxs

end Loop

section Machine

variable (step : σ → ι → Except ε σ)

/-- The state after a list of inputs; the first failing step ends the run. -/
def run : σ → List ι → Except ε σ
  | s, [] => .ok s
  | s, op :: ops => step s op >>= fun s' => run s' ops

/-- Every step of the run from `s` meets `P`, a condition on the state before the
step and on its input. -/
def StepsAll (P : σ → ι → Prop) : σ → List ι → Prop
  | _, [] => True
  | s, op :: ops =>
      P s op ∧ match step s op with
        | .ok s' => StepsAll P s' ops
        | .error _ => True

instance decidableStepsAll (P : σ → ι → Prop) [∀ s op, Decidable (P s op)] :
    ∀ s ops, Decidable (StepsAll step P s ops)
  | _, [] => .isTrue trivial
  | s, op :: ops =>
      have : Decidable (match step s op with
          | .ok s' => StepsAll step P s' ops
          | .error _ => True) :=
        match step s op with
        | .ok s' => decidableStepsAll P s' ops
        | .error _ => .isTrue trivial
      inferInstanceAs (Decidable (P s op ∧ _))

variable {step}

theorem run_cons_eq_ok {s t : σ} {op : ι} {ops : List ι} :
    run step s (op :: ops) = .ok t ↔ ∃ s', step s op = .ok s' ∧ run step s' ops = .ok t := by
  rw [run, bind_eq_ok]

theorem run_append_eq_ok {s t : σ} {ops ops' : List ι} :
    run step s (ops ++ ops') = .ok t ↔
      ∃ s', run step s ops = .ok s' ∧ run step s' ops' = .ok t := by
  induction ops generalizing s with
  | nil => simp [run]
  | cons op ops ih =>
      simp only [List.cons_append, run_cons_eq_ok, ih]
      constructor
      · rintro ⟨u, hop, s', hops, hrest⟩
        exact ⟨s', ⟨u, hop, hops⟩, hrest⟩
      · rintro ⟨s', ⟨u, hop, hops⟩, hrest⟩
        exact ⟨u, hop, s', hops, hrest⟩

/-- A loop that takes one step for each of its elements is a run. -/
theorem foldlM_step (step : σ → ι → Except ε σ) (f : α → ι) (xs : List α) (s : σ) :
    xs.foldlM (fun s x => step s (f x)) s = run step s (xs.map f) := by
  induction xs generalizing s with
  | nil => rfl
  | cons x xs ih =>
      rw [List.foldlM_cons, List.map_cons, run]
      exact congrArg _ (funext ih)

theorem exists_run_of_controller {κ : Type} {step : σ → ι → Except ε σ}
    {control : σ → κ → Except ε σ}
    (hcontrol : ∀ s input s', control s input = .ok s' → ∃ ops, run step s ops = .ok s')
    {s t : σ} {inputs : List κ} (hrun : run control s inputs = .ok t) :
    ∃ ops, run step s ops = .ok t := by
  induction inputs generalizing s with
  | nil => exact ⟨[], hrun⟩
  | cons input inputs ih =>
      obtain ⟨s', hinput, hinputs⟩ := run_cons_eq_ok.mp hrun
      obtain ⟨ops, hops⟩ := hcontrol s input s' hinput
      obtain ⟨ops', hops'⟩ := ih hinputs
      exact ⟨ops ++ ops', run_append_eq_ok.mpr ⟨s', hops, hops'⟩⟩

theorem run_invariant {P : σ → Prop}
    (hstep : ∀ s op s', P s → step s op = .ok s' → P s')
    {s t : σ} {ops : List ι} (hinit : P s) (hrun : run step s ops = .ok t) : P t := by
  induction ops generalizing s with
  | nil =>
      cases hrun
      exact hinit
  | cons op ops ih =>
      obtain ⟨s', hop, hops⟩ := run_cons_eq_ok.mp hrun
      exact ih (hstep s op s' hinit hop) hops

/-- What every step meeting `P` preserves, every run of such steps preserves. -/
theorem run_invariant_of_stepsAll {I : σ → Prop} {P : σ → ι → Prop}
    (hstep : ∀ s op s', I s → P s op → step s op = .ok s' → I s')
    {s t : σ} {ops : List ι} (hinit : I s) (hall : StepsAll step P s ops)
    (hrun : run step s ops = .ok t) : I t := by
  induction ops generalizing s with
  | nil =>
      cases hrun
      exact hinit
  | cons op ops ih =>
      obtain ⟨s', hop, hops⟩ := run_cons_eq_ok.mp hrun
      obtain ⟨hP, hrest⟩ := hall
      rw [hop] at hrest
      exact ih (hstep s op s' hinit hP hop) hrest hops

/-- What an invariant and a condition on each step imply of the step, every step of a run meets. -/
theorem stepsAll_imp_of_invariant {I : σ → Prop} {P Q : σ → ι → Prop}
    (hstep : ∀ s op s', I s → P s op → step s op = .ok s' → I s')
    (himplies : ∀ s op, I s → P s op → Q s op) {s : σ} {ops : List ι} (hinit : I s)
    (hall : StepsAll step P s ops) : StepsAll step Q s ops := by
  induction ops generalizing s with
  | nil => trivial
  | cons op ops ih =>
      obtain ⟨hop, hrest⟩ := hall
      refine ⟨himplies s op hinit hop, ?_⟩
      cases hdone : step s op with
      | error e => trivial
      | ok s' =>
          rw [hdone] at hrest
          exact ih (hstep s op s' hinit hop hdone) hrest

theorem StepsAll.take {P : σ → ι → Prop} {s : σ} {ops : List ι} (h : StepsAll step P s ops)
    (n : ℕ) : StepsAll step P s (ops.take n) := by
  induction ops generalizing s n with
  | nil => simpa using h
  | cons op ops ih =>
      cases n with
      | zero => trivial
      | succ n =>
          obtain ⟨hop, hrest⟩ := h
          refine ⟨hop, ?_⟩
          cases hstep : step s op with
          | error e => trivial
          | ok s' =>
              rw [hstep] at hrest
              exact ih hrest n

/-- A condition on the inputs alone is one on every step. -/
theorem stepsAll_of_forall {A : ι → Prop} (s : σ) {ops : List ι} (hops : ∀ op ∈ ops, A op) :
    StepsAll step (fun _ op => A op) s ops := by
  induction ops generalizing s with
  | nil => trivial
  | cons op ops ih =>
      obtain ⟨hop, hrest⟩ := List.forall_mem_cons.mp hops
      refine ⟨hop, ?_⟩
      cases step s op with
      | error e => trivial
      | ok s' => exact ih s' hrest

/-- What an invariant and a condition on the inputs imply of a step, every step of a run meets. -/
theorem stepsAll_of_invariant {I : σ → Prop} {A : ι → Prop} {P : σ → ι → Prop}
    (hstep : ∀ s op s', I s → A op → step s op = .ok s' → I s')
    (himplies : ∀ s op, I s → A op → P s op) {s : σ} {ops : List ι} (hinit : I s)
    (hops : ∀ op ∈ ops, A op) : StepsAll step P s ops :=
  stepsAll_imp_of_invariant hstep himplies hinit (stepsAll_of_forall s hops)

/-- A property that a step keeps exactly when the step meets `P` holds after a run
exactly when it held before and every step met `P`. -/
theorem run_iff_stepsAll {I Good : σ → Prop} {P : σ → ι → Prop}
    (hstep : ∀ s op s', I s → step s op = .ok s' → I s' ∧ (Good s' ↔ Good s ∧ P s op))
    {s t : σ} {ops : List ι} (hinit : I s) (hrun : run step s ops = .ok t) :
    Good t ↔ Good s ∧ StepsAll step P s ops := by
  induction ops generalizing s with
  | nil =>
      cases hrun
      simp [StepsAll]
  | cons op ops ih =>
      obtain ⟨s', hop, hops⟩ := run_cons_eq_ok.mp hrun
      obtain ⟨hinv, hgood⟩ := hstep s op s' hinit hop
      rw [ih hinv hops, hgood, StepsAll, hop, and_assoc]

/-- Two conditions on steps that agree wherever an invariant holds agree on whole runs. -/
theorem stepsAll_congr {I : σ → Prop} {P Q : σ → ι → Prop}
    (hstep : ∀ s op s', I s → step s op = .ok s' → I s')
    (hcongr : ∀ s op, I s → (P s op ↔ Q s op)) {s : σ} {ops : List ι} (hinit : I s) :
    StepsAll step P s ops ↔ StepsAll step Q s ops := by
  induction ops generalizing s with
  | nil => exact Iff.rfl
  | cons op ops ih =>
      rw [StepsAll, StepsAll, hcongr s op hinit]
      refine and_congr_right fun _ => ?_
      cases hop : step s op with
      | error e => exact Iff.rfl
      | ok s' => exact ih (hstep s op s' hinit hop)

/-- Two conditions on steps that agree wherever an invariant holds agree on whole runs, if a step
that meets them keeps the invariant. -/
theorem stepsAll_congr_of_kept {I : σ → Prop} {P Q : σ → ι → Prop}
    (hcongr : ∀ s op, I s → (P s op ↔ Q s op))
    (hstep : ∀ s op s', P s op → step s op = .ok s' → I s') {s : σ} {ops : List ι}
    (hinit : I s) : StepsAll step P s ops ↔ StepsAll step Q s ops := by
  induction ops generalizing s with
  | nil => exact Iff.rfl
  | cons op ops ih =>
      rw [StepsAll, StepsAll, ← hcongr s op hinit]
      refine and_congr_right fun hmet => ?_
      cases hop : step s op with
      | error e => exact Iff.rfl
      | ok s' => exact ih (hstep s op s' hmet hop)

theorem StepsAll.last {P : σ → ι → Prop} {s t : σ} {ops : List ι} {op : ι}
    (hall : StepsAll step P s (ops ++ [op])) (hrun : run step s ops = .ok t) : P t op := by
  induction ops generalizing s with
  | nil =>
      cases hrun
      exact hall.1
  | cons first ops ih =>
      obtain ⟨s', hfirst, hops⟩ := run_cons_eq_ok.mp hrun
      have hrest := hall.2
      rw [hfirst] at hrest
      exact ih hrest hops

/-- Every state that a run passes through is good exactly when every step of the run meets
`P`, the condition under which a step leaves a good state good. -/
theorem reached_iff_stepsAll {I Good : σ → Prop} {A : ι → Prop} {P : σ → ι → Prop}
    (hstep : ∀ s op s', I s → A op → Good s → step s op = .ok s' → I s' ∧ (Good s' ↔ P s op))
    {s t : σ} {ops : List ι} (hops : ∀ op ∈ ops, A op) (hinit : I s) (hgood : Good s)
    (hrun : run step s ops = .ok t) :
    (∀ n u, run step s (ops.take n) = .ok u → Good u) ↔ StepsAll step P s ops := by
  induction ops generalizing s with
  | nil =>
      rw [StepsAll, iff_true]
      intro n u hreached
      rw [List.take_nil] at hreached
      cases hreached
      exact hgood
  | cons op ops ih =>
      obtain ⟨s', hop, hrest⟩ := run_cons_eq_ok.mp hrun
      obtain ⟨hinv, hnext⟩ := hstep s op s' hinit (hops op List.mem_cons_self) hgood hop
      have hops' : ∀ later ∈ ops, A later := fun later hmem => hops later (List.mem_cons_of_mem op hmem)
      rw [StepsAll, hop]
      constructor
      · intro hall
        have hgood' : Good s' := hall 1 s' (run_cons_eq_ok.mpr ⟨s', hop, rfl⟩)
        refine ⟨hnext.mp hgood', (ih hops' hinv hgood' hrest).mp fun n u hreached => ?_⟩
        exact hall (n + 1) u (run_cons_eq_ok.mpr ⟨s', hop, hreached⟩)
      · rintro ⟨hP, hsteps⟩ n u hreached
        have hgood' : Good s' := hnext.mpr hP
        cases n with
        | zero =>
            cases hreached
            exact hgood
        | succ n =>
            obtain ⟨s'', hop', hreached⟩ := run_cons_eq_ok.mp hreached
            rw [hop] at hop'
            cases hop'
            exact (ih hops' hinv hgood' hrest).mpr hsteps n u hreached

end Machine

end Finiex.Lib.Run
