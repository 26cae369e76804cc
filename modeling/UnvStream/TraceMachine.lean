import Mathlib.Data.List.Basic

/-!
# Partial step functions and their runs

A machine is a step function that says which state an event leads to, or that the
event cannot happen. A run is a list of events that can all happen in turn.
-/

namespace TraceMachine

universe u v w
variable {σ : Type u} {ε : Type v} (step : σ → ε → Option σ)

def run : σ → List ε → Option σ
  | s, [] => some s
  | s, e :: es => (step s e).bind fun s => run s es

/-- Every event of the run happens in a state that allows it. -/
def Along (allowed : σ → ε → Prop) : σ → List ε → Prop
  | _, [] => True
  | s, e :: es => allowed s e ∧ ∀ s', step s e = some s' → Along allowed s' es

def Along.decidable {allowed : σ → ε → Prop} [∀ s e, Decidable (allowed s e)] :
    (s : σ) → (es : List ε) → Decidable (Along step allowed s es)
  | _, [] => inferInstanceAs (Decidable True)
  | s, e :: es =>
    match h : step s e with
    | none => decidable_of_iff (allowed s e)
        ⟨fun ok => ⟨ok, fun s' h' => by rw [h] at h'; cases h'⟩, And.left⟩
    | some t =>
      have : Decidable (Along step allowed t es) := Along.decidable t es
      decidable_of_iff (allowed s e ∧ Along step allowed t es)
        ⟨fun ok => ⟨ok.1, fun s' h' => Option.some.inj (h.symm.trans h') ▸ ok.2⟩,
          fun ok => ⟨ok.1, ok.2 t h⟩⟩

instance {allowed : σ → ε → Prop} [∀ s e, Decidable (allowed s e)] (s : σ) (es : List ε) :
    Decidable (Along step allowed s es) :=
  Along.decidable step s es

theorem run_cons {s s' : σ} {e : ε} {es : List ε} :
    run step s (e :: es) = some s' ↔ ∃ t, step s e = some t ∧ run step t es = some s' :=
  Option.bind_eq_some_iff

theorem run_append {s t s' : σ} {before after : List ε} (first : run step s before = some t)
    (whole : run step s (before ++ after) = some s') : run step t after = some s' := by
  induction before generalizing s with
  | nil =>
    cases first
    exact whole
  | cons e before ih =>
    obtain ⟨t1, hstep, first'⟩ := (run_cons step).mp first
    obtain ⟨t2, hstep', whole'⟩ := (run_cons step).mp whole
    have same : t1 = t2 := Option.some.inj (hstep.symm.trans hstep')
    subst same
    exact ih first' whole'

theorem run_trans {s t u : σ} {before after : List ε} (first : run step s before = some t)
    (second : run step t after = some u) : run step s (before ++ after) = some u := by
  induction before generalizing s with
  | nil =>
    cases first
    exact second
  | cons e before ih =>
    obtain ⟨t1, hstep, first'⟩ := (run_cons step).mp first
    exact (run_cons step).mpr ⟨t1, hstep, ih first'⟩

/-- What every allowed step preserves holds after every run of allowed steps. -/
theorem invariant_along {allowed : σ → ε → Prop} {inv : σ → Prop}
    (preserved : ∀ s e s', inv s → allowed s e → step s e = some s' → inv s') {s s' : σ}
    {es : List ε} (start : inv s) (along : Along step allowed s es)
    (hrun : run step s es = some s') : inv s' := by
  induction es generalizing s with
  | nil =>
    cases hrun
    exact start
  | cons e es ih =>
    obtain ⟨t, hstep, rest⟩ := (run_cons step).mp hrun
    exact ih (preserved s e t start along.1 hstep) (along.2 t hstep) rest

/-- What allowed steps establish under an invariant of all steps. -/
theorem along_of_invariant {allowed good : σ → ε → Prop} {inv : σ → Prop}
    (preserved : ∀ s e s', inv s → step s e = some s' → inv s')
    (sound : ∀ s e, inv s → allowed s e → good s e) {s : σ} {es : List ε} (start : inv s)
    (along : Along step allowed s es) : Along step good s es := by
  induction es generalizing s with
  | nil => trivial
  | cons e es ih =>
    refine ⟨sound s e start along.1, fun s' hstep => ?_⟩
    exact ih (preserved s e s' start hstep) (along.2 s' hstep)

theorem along_of_always {allowed : σ → ε → Prop} (always : ∀ s e, allowed s e) (s : σ)
    (es : List ε) : Along step allowed s es := by
  induction es generalizing s with
  | nil => trivial
  | cons e es ih => exact ⟨always s e, fun s' _ => ih s'⟩

theorem along_of_forall {good : ε → Prop} (s : σ) {es : List ε} (all : ∀ e ∈ es, good e) :
    Along step (fun _ e => good e) s es := by
  induction es generalizing s with
  | nil => trivial
  | cons e es ih =>
    obtain ⟨now, later⟩ := List.forall_mem_cons.mp all
    exact ⟨now, fun s' _ => ih s' later⟩

/-- What every step preserves holds in every reachable state. -/
theorem invariant_of_run {inv : σ → Prop}
    (preserved : ∀ s e s', inv s → step s e = some s' → inv s') {s s' : σ} {es : List ε}
    (start : inv s) (hrun : run step s es = some s') : inv s' := by
  have along : Along step (fun _ _ => True) s es := along_of_always step (fun _ _ => trivial) s es
  exact invariant_along step (fun s e s' hs _ hstep => preserved s e s' hs hstep) start along hrun

/-- Where each step keeps a property exactly if it is allowed, a run keeps it exactly if all of
its steps are. -/
theorem kept_iff_along {allowed : σ → ε → Prop} {inv good : σ → Prop}
    (preserved : ∀ s e s', inv s → step s e = some s' → inv s')
    (exact_step : ∀ s e s', inv s → step s e = some s' → (good s' ↔ good s ∧ allowed s e))
    {s s' : σ} {es : List ε} (start : inv s) (hrun : run step s es = some s') :
    good s' ↔ good s ∧ Along step allowed s es := by
  induction es generalizing s with
  | nil =>
    cases hrun
    exact (and_iff_left trivial).symm
  | cons e es ih =>
    obtain ⟨t, hstep, rest⟩ := (run_cons step).mp hrun
    rw [ih (preserved s e t start hstep) rest, exact_step s e t start hstep, and_assoc]
    refine and_congr_right fun _ => and_congr_right fun _ => ?_
    constructor
    · intro along t' hstep'
      obtain rfl := Option.some.inj (hstep.symm.trans hstep')
      exact along
    · intro along
      exact along t hstep

/-- A machine that follows another one step by step, or stands still, runs where it runs. -/
theorem run_of_simulation {σ' : Type u} {ε' : Type v} {step' : σ' → ε' → Option σ'} {abs : σ → σ'}
    {inv : σ → Prop} (preserved : ∀ s e s', inv s → step s e = some s' → inv s')
    (follows : ∀ s e s', inv s → step s e = some s' →
      abs s' = abs s ∨ ∃ e', step' (abs s) e' = some (abs s')) {s s' : σ} {es : List ε}
    (start : inv s) (hrun : run step s es = some s') :
    ∃ es', run step' (abs s) es' = some (abs s') := by
  induction es generalizing s with
  | nil =>
    cases hrun
    exact ⟨[], rfl⟩
  | cons e es ih =>
    obtain ⟨t, hstep, rest⟩ := (run_cons step).mp hrun
    obtain ⟨es', later⟩ := ih (preserved s e t start hstep) rest
    rcases follows s e t start hstep with still | ⟨e', moved⟩
    · exact ⟨es', still ▸ later⟩
    · exact ⟨e' :: es', (run_cons step').mpr ⟨abs t, moved, later⟩⟩

/-- A run of two lists of events has a state between them. -/
theorem run_split {s u : σ} {before after : List ε} (whole : run step s (before ++ after) = some u) :
    ∃ t, run step s before = some t ∧ run step t after = some u := by
  induction before generalizing s with
  | nil => exact ⟨s, rfl, whole⟩
  | cons e before ih =>
    obtain ⟨t1, hstep, rest⟩ := (run_cons step).mp whole
    obtain ⟨t, first, second⟩ := ih rest
    exact ⟨t, (run_cons step).mpr ⟨t1, hstep, first⟩, second⟩

/-- What the events of a run give out, each between the states before and behind it. -/
def outputs {β : Type w} (given : σ → ε → σ → List β) : σ → List ε → List β
  | _, [] => []
  | s, e :: es =>
    match step s e with
    | none => []
    | some t => given s e t ++ outputs given t es

theorem outputs_cons {β : Type w} (given : σ → ε → σ → List β) {s t : σ} {e : ε} (es : List ε)
    (stepped : step s e = some t) :
    outputs step given s (e :: es) = given s e t ++ outputs step given t es := by
  simp only [outputs, stepped]

/-- Where each step gives out or holds what it takes in, in order, a run does. -/
theorem conserved_of_run {β : Type w} {taken : ε → List β} {given : σ → ε → σ → List β}
    {held : σ → List β} {inv : σ → Prop}
    (preserved : ∀ s e s', inv s → step s e = some s' → inv s')
    (conserves : ∀ s e s', inv s → step s e = some s' →
      held s ++ taken e = given s e s' ++ held s') {s s' : σ} {es : List ε}
    (start : inv s) (hrun : run step s es = some s') :
    held s ++ es.flatMap taken = outputs step given s es ++ held s' := by
  induction es generalizing s with
  | nil =>
    cases hrun
    exact List.append_nil _
  | cons e es ih =>
    obtain ⟨t, hstep, rest⟩ := (run_cons step).mp hrun
    have later := ih (preserved s e t start hstep) rest
    rw [List.flatMap_cons, outputs_cons step given es hstep, ← List.append_assoc,
      conserves s e t start hstep, List.append_assoc, later, List.append_assoc]

end TraceMachine
