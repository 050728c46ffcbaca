import Mathlib.Tactic

/-!
# Resumable transducers

A transducer reads a stream that arrives in pieces.  Its step function looks at
the input that is available, and either waits or consumes a prefix of it and
emits some output.  Two fields make it resumable:

* `step_append` — a step that is possible stays the same step when more input
  has already arrived;
* `weight_lt` — every step makes progress, so the available input is drained in
  finitely many steps.

From these two, draining commutes with concatenation (`run_append`): what a piece
leaves behind is drained together with the next one, and how a stream is cut into
pieces is not observable.
-/

/-- A step function on a state and the available input, with the two laws that
make it resumable. -/
structure Transducer (σ α ε : Type*) where
  /-- Wait, or give the next state, the output and the input left over. -/
  step : σ → List α → Option (σ × List ε × List α)
  weight : σ → List α → Nat
  weight_lt : ∀ {s xs s' es ys}, step s xs = some (s', es, ys) → weight s' ys < weight s xs
  step_append : ∀ {s xs s' es ys}, step s xs = some (s', es, ys) →
    ∀ zs, step s (xs ++ zs) = some (s', es, ys ++ zs)

namespace Transducer

variable {σ α ε : Type*} (T : Transducer σ α ε)

/-- What a run leaves behind: the state, the whole output, the input that the
last state is waiting on. -/
@[ext]
structure Result (σ α ε : Type*) where
  state : σ
  output : List ε
  rest : List α

/-- Put the output of earlier steps in front. -/
def Result.prepend (es : List ε) (r : Result σ α ε) : Result σ α ε :=
  { r with output := es ++ r.output }

@[simp] theorem Result.prepend_prepend (es fs : List ε) (r : Result σ α ε) :
    (r.prepend fs).prepend es = r.prepend (es ++ fs) := by
  simp [Result.prepend]

@[simp] theorem Result.prepend_state (es : List ε) (r : Result σ α ε) :
    (r.prepend es).state = r.state := rfl

@[simp] theorem Result.prepend_rest (es : List ε) (r : Result σ α ε) :
    (r.prepend es).rest = r.rest := rfl

@[simp] theorem Result.prepend_output (es : List ε) (r : Result σ α ε) :
    (r.prepend es).output = es ++ r.output := rfl

/-- Drain the available input. -/
def run (s : σ) (xs : List α) : Result σ α ε :=
  match _h : T.step s xs with
  | none => ⟨s, [], xs⟩
  | some (s', es, ys) => (run s' ys).prepend es
termination_by T.weight s xs
decreasing_by exact T.weight_lt _h

theorem run_of_none {s : σ} {xs : List α} (h : T.step s xs = none) :
    T.run s xs = ⟨s, [], xs⟩ := by
  rw [run]
  split
  · rfl
  · next heq => rw [h] at heq; cases heq

theorem run_of_some {s s' : σ} {xs ys : List α} {es : List ε}
    (h : T.step s xs = some (s', es, ys)) : T.run s xs = (T.run s' ys).prepend es := by
  rw [run]
  split
  · next heq => rw [h] at heq; cases heq
  · next heq =>
      rw [h] at heq
      cases heq
      rfl

/-- Steps taken one after another, with the output they emit. -/
inductive Steps : σ → List α → List ε → σ → List α → Prop
  | refl (s : σ) (xs : List α) : Steps s xs [] s xs
  | head {s s' t : σ} {xs ys zs : List α} {es fs : List ε} :
      T.step s xs = some (s', es, ys) → Steps s' ys fs t zs → Steps s xs (es ++ fs) t zs

variable {T}

theorem Steps.single {s s' : σ} {xs ys : List α} {es : List ε}
    (h : T.step s xs = some (s', es, ys)) : T.Steps s xs es s' ys := by
  simpa using Steps.head h (Steps.refl s' ys)

theorem Steps.trans {s t u : σ} {xs ys zs : List α} {es fs : List ε}
    (h : T.Steps s xs es t ys) (h' : T.Steps t ys fs u zs) : T.Steps s xs (es ++ fs) u zs := by
  induction h with
  | refl => exact h'
  | head hstep _ ih =>
      rw [List.append_assoc]
      exact Steps.head hstep (ih h')

/-- Input that arrives behind the available input does not disturb the steps
already possible. -/
theorem Steps.append {s t : σ} {xs ys : List α} {es : List ε}
    (h : T.Steps s xs es t ys) (zs : List α) : T.Steps s (xs ++ zs) es t (ys ++ zs) := by
  induction h with
  | refl => exact Steps.refl _ _
  | head hstep _ ih => exact Steps.head (T.step_append hstep zs) ih

/-- A run is the steps taken so far, then the run from where they lead. -/
theorem Steps.run_eq {s t : σ} {xs ys : List α} {es : List ε}
    (h : T.Steps s xs es t ys) : T.run s xs = (T.run t ys).prepend es := by
  induction h with
  | refl => rfl
  | head hstep _ ih => rw [run_of_some T hstep, ih, Result.prepend_prepend]

/-- Steps that end in a waiting state are the whole run. -/
theorem Steps.run_eq_of_waiting {s t : σ} {xs ys : List α} {es : List ε}
    (h : T.Steps s xs es t ys) (hwait : T.step t ys = none) : T.run s xs = ⟨t, es, ys⟩ := by
  rw [h.run_eq, run_of_none T hwait]
  simp [Result.prepend]

variable (T)

/-- Induction along a run: one case for waiting, one for a step. -/
theorem run_induction {motive : σ → List α → Prop}
    (waiting : ∀ s xs, T.step s xs = none → motive s xs)
    (stepping : ∀ s xs s' es ys, T.step s xs = some (s', es, ys) → motive s' ys → motive s xs)
    (s : σ) (xs : List α) : motive s xs := by
  induction h : T.weight s xs using Nat.strongRecOn generalizing s xs with
  | _ n ih =>
      cases hstep : T.step s xs with
      | none => exact waiting s xs hstep
      | some r =>
          obtain ⟨s', es, ys⟩ := r
          exact stepping s xs s' es ys hstep (ih _ (h ▸ T.weight_lt hstep) s' ys rfl)

theorem steps_run (s : σ) (xs : List α) :
    T.Steps s xs (T.run s xs).output (T.run s xs).state (T.run s xs).rest := by
  induction s, xs using T.run_induction with
  | waiting s xs h => rw [run_of_none T h]; exact Steps.refl s xs
  | stepping s xs s' es ys h ih => rw [run_of_some T h]; exact Steps.head h ih

/-- A run ends where no step is possible. -/
theorem step_run_eq_none (s : σ) (xs : List α) :
    T.step (T.run s xs).state (T.run s xs).rest = none := by
  induction s, xs using T.run_induction with
  | waiting s xs h => rw [run_of_none T h]; exact h
  | stepping s xs s' es ys h ih => rw [run_of_some T h]; exact ih

/-- Draining a concatenation is draining the front, then draining what it left
followed by the back. -/
theorem run_append (s : σ) (xs ys : List α) :
    T.run s (xs ++ ys) =
      (T.run (T.run s xs).state ((T.run s xs).rest ++ ys)).prepend (T.run s xs).output :=
  ((T.steps_run s xs).append ys).run_eq

/-- A relation that single steps keep, up to a translation of the output, is kept
by runs. -/
theorem run_translate {R : σ → σ → Prop} {f : ε → ε}
    (waits : ∀ {s s' xs}, R s s' → T.step s xs = none → T.step s' xs = none)
    (steps : ∀ {s s' t xs es ys}, R s s' → T.step s xs = some (t, es, ys) →
      ∃ t', T.step s' xs = some (t', es.map f, ys) ∧ R t t')
    {s s' : σ} (h : R s s') (xs : List α) :
    R (T.run s xs).state (T.run s' xs).state ∧
      (T.run s' xs).output = (T.run s xs).output.map f ∧
      (T.run s' xs).rest = (T.run s xs).rest := by
  induction s, xs using T.run_induction generalizing s' with
  | waiting s xs hwait =>
      rw [run_of_none T hwait, run_of_none T (waits h hwait)]
      exact ⟨h, rfl, rfl⟩
  | stepping s xs t es ys hstep ih =>
      obtain ⟨t', hstep', ht⟩ := steps h hstep
      obtain ⟨hstate, houtput, hrest⟩ := ih ht
      rw [run_of_some T hstep, run_of_some T hstep']
      refine ⟨hstate, ?_, hrest⟩
      rw [Result.prepend_output, Result.prepend_output, houtput, List.map_append]

end Transducer
