import Finiex.Lib.Run
import Mathlib.Logic.Relation

/-!
# States reached by admissible steps

A controller drives a fallible machine. What it reaches is a run of the machine whose steps
meet the conditions under which the controller takes them.
-/

namespace Finiex.Lib.Reach

open Finiex.Lib.Run

variable {ε σ τ ι κ : Type}

/-- One step of the machine, on an input that meets `P` in the state it is taken. -/
def StepBy (step : σ → ι → Except ε σ) (P : σ → ι → Prop) (s s' : σ) : Prop :=
  ∃ op, P s op ∧ step s op = .ok s'

abbrev ReachesBy (step : σ → ι → Except ε σ) (P : σ → ι → Prop) : σ → σ → Prop :=
  Relation.ReflTransGen (StepBy step P)

namespace ReachesBy

variable {step : σ → ι → Except ε σ} {P Q : σ → ι → Prop} {s s' : σ}

theorem one {op : ι} (hP : P s op) (hstep : step s op = .ok s') : ReachesBy step P s s' :=
  .single ⟨op, hP, hstep⟩

theorem mono (hPQ : ∀ s op, P s op → Q s op) (h : ReachesBy step P s s') :
    ReachesBy step Q s s' :=
  Relation.ReflTransGen.mono (fun _ _ ⟨op, hP, hstep⟩ => ⟨op, hPQ _ op hP, hstep⟩) _ _ h

/-- What the admissible steps preserve holds of everything they reach. -/
theorem invariant {I : σ → Prop} (hstep : ∀ s op s', I s → P s op → step s op = .ok s' → I s')
    (hinit : I s) (h : ReachesBy step P s s') : I s' := by
  induction h with
  | refl => exact hinit
  | tail _ hlast ih =>
      obtain ⟨op, hP, hop⟩ := hlast
      exact hstep _ op _ ih hP hop

/-- A condition that an invariant implies may be assumed of the steps. -/
theorem strengthen {I : σ → Prop} (hstep : ∀ s op s', I s → P s op → step s op = .ok s' → I s')
    (hinit : I s) (h : ReachesBy step P s s') : ReachesBy step (fun s op => I s ∧ P s op) s s' := by
  have hboth : I s' ∧ ReachesBy step (fun s op => I s ∧ P s op) s s' := by
    induction h with
    | refl => exact ⟨hinit, .refl⟩
    | tail _ hlast ih =>
        obtain ⟨op, hP, hop⟩ := hlast
        obtain ⟨hinv, hreached⟩ := ih
        exact ⟨hstep _ op _ hinv hP hop, hreached.tail ⟨op, ⟨hinv, hP⟩, hop⟩⟩
  exact hboth.2

end ReachesBy

/-- A controller each of whose steps is a sequence of admissible steps of the machine it drives
only reaches states of the machine that admissible steps reach. It may rely on an invariant of the
machine. -/
theorem reachesBy_of_run {step : σ → ι → Except ε σ} {P : σ → ι → Prop} {I : σ → Prop}
    {control : τ → κ → Except ε τ} (machine : τ → σ)
    (hinv : ∀ s op s', I s → step s op = .ok s' → I s')
    (hcontrol : ∀ c input c', I (machine c) → control c input = .ok c' →
      ReachesBy step P (machine c) (machine c'))
    {c c' : τ} {inputs : List κ} (hinit : I (machine c)) (hrun : run control c inputs = .ok c') :
    ReachesBy step P (machine c) (machine c') := by
  have hboth : I (machine c') ∧ ReachesBy step P (machine c) (machine c') := by
    refine run_invariant (P := fun now => I (machine now) ∧
      ReachesBy step P (machine c) (machine now)) ?_ ⟨hinit, .refl⟩ hrun
    rintro now input next ⟨hnow, hreached⟩ hnext
    have hmoved := hcontrol now input next hnow hnext
    exact ⟨hmoved.invariant (fun s op s' h _ hstep => hinv s op s' h hstep) hnow,
      hreached.trans hmoved⟩
  exact hboth.2

end Finiex.Lib.Reach
