import Mathlib.Data.List.Basic

/-!
# One machine carried out by another

Two machines that are given by their step functions, and a relation between their states.
Each act of the first is carried out by some acts of the second, perhaps none.  Acts have a
visible part, which both show alike.

* `CarriesOut` — the step law;
* `CarriesOut.run` — runs;
* `Invariant.run` — what every act of a run keeps.
-/

namespace Simulation

variable {S T A B C : Type*}

/-- The state behind some acts. -/
def run (step : A → S → S) (acts : List A) (s : S) : S :=
  acts.foldl (fun s act => step act s) s

@[simp] theorem run_nil (step : A → S → S) (s : S) : run step [] s = s := rfl

@[simp] theorem run_cons (step : A → S → S) (act : A) (acts : List A) (s : S) :
    run step (act :: acts) s = run step acts (step act s) := rfl

theorem run_append (step : A → S → S) (acts acts' : List A) (s : S) :
    run step (acts ++ acts') s = run step acts' (run step acts s) :=
  List.foldl_append

/-- From related states, an allowed act leads to related states again, if the second machine does
some acts that show the same. -/
def CarriesOut (step : A → S → S) (step' : B → T → T) (visible : A → List C)
    (visible' : B → List C) (R : S → T → Prop) (allowed : A → Prop) : Prop :=
  ∀ act, allowed act → ∀ s t, R s t →
    ∃ acts, R (step act s) (run step' acts t) ∧ acts.flatMap visible' = visible act

variable {step : A → S → S} {step' : B → T → T} {visible : A → List C} {visible' : B → List C}
  {R : S → T → Prop} {allowed : A → Prop}

/-- A run of the first machine is carried out by a run of the second. -/
theorem CarriesOut.run (h : CarriesOut step step' visible visible' R allowed) {acts : List A}
    (hallowed : ∀ act ∈ acts, allowed act) {s : S} {t : T} (hrelated : R s t) :
    ∃ acts', R (Simulation.run step acts s) (Simulation.run step' acts' t) ∧
      acts'.flatMap visible' = acts.flatMap visible := by
  induction acts generalizing s t with
  | nil => exact ⟨[], hrelated, rfl⟩
  | cons act acts ih =>
      obtain ⟨hact, hacts⟩ := List.forall_mem_cons.mp hallowed
      obtain ⟨first, hfirst, hvisible⟩ := h act hact s t hrelated
      obtain ⟨rest, hrest, hvisible'⟩ := ih hacts hfirst
      refine ⟨first ++ rest, ?_, ?_⟩
      · rw [run_append]
        exact hrest
      · rw [List.flatMap_append, hvisible, hvisible', List.flatMap_cons]

/-- What every allowed act keeps, every run of them keeps. -/
theorem Invariant.run {P : S → Prop} (hstep : ∀ act, allowed act → ∀ s, P s → P (step act s))
    {acts : List A} (hallowed : ∀ act ∈ acts, allowed act) {s : S} (hs : P s) :
    P (Simulation.run step acts s) := by
  induction acts generalizing s with
  | nil => exact hs
  | cons act acts ih =>
      obtain ⟨hact, hacts⟩ := List.forall_mem_cons.mp hallowed
      exact ih hacts (hstep act hact s hs)

end Simulation
