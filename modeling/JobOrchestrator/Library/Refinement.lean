import JobOrchestrator.Library.TransitionSystem

/-!
# Refinement of an abstract step relation

A transition system *refines* a step relation on abstract states when an abstraction function sends
every step of it to an abstract step or to none.  What holds of the abstract model then holds of
the system: a run is an abstract run (`Refines.steps`), and what the abstract steps preserve is an
invariant of the system (`Refines.invariant`).

A system that consists of many components is refined component by component: `refines_pi` puts the
refinements of the components together to one of the whole.
-/

namespace TransitionSystem

open Relation

variable {σ ℓ τ : Type*}

/-- The steps of `T`, seen through `abs`, are steps of `R` or silent. -/
structure Refines (T : TransitionSystem σ ℓ) (abs : σ → τ) (start : τ → Prop) (R : τ → τ → Prop) :
    Prop where
  init : ∀ s, T.init s → start (abs s)
  step : ∀ s l s', T.Reachable Always s → T.step s l = some s' → ReflGen R (abs s) (abs s')

section Refines

variable {T : TransitionSystem σ ℓ} {abs : σ → τ} {start : τ → Prop} {R : τ → τ → Prop} {s s' : σ}

/-- A run is an abstract run. -/
theorem Refines.steps (h : T.Refines abs start R) (hreach : T.Reachable Always s)
    (hsteps : T.Steps Always s s') : ReflTransGen R (abs s) (abs s') := by
  refine hreach.preserves (I := fun t => ReflTransGen R (abs s) (abs t)) (fun _ _ _ => trivial) ?_
    hsteps ReflTransGen.refl
  intro t l t' hreach _ hstep hbefore
  exact hbefore.trans (h.step t l t' hreach hstep).to_reflTransGen

/-- What the abstract steps preserve holds in every reachable state. -/
theorem Refines.invariant {I : τ → Prop} (h : T.Refines abs start R) (hstart : ∀ a, start a → I a)
    (hstep : ∀ a b, R a b → I a → I b) (hreach : T.Reachable Always s) : I (abs s) := by
  refine hreach.invariant (I := fun s => I (abs s)) (fun s hs => hstart _ (h.init s hs)) ?_
  intro s l s' hreach _ hl hI
  rcases (reflGen_iff ..).mp (h.step s l s' hreach hl) with hsilent | hR
  · exact hsilent ▸ hI
  · exact hstep _ _ hR hI

end Refines

/-- A system refines the product of what it refines, one silent or proper step in each
component. -/
theorem refines_pi {ι : Type*} {T : TransitionSystem σ ℓ} {abs : σ → ι → τ} {start : τ → Prop}
    {R : τ → τ → Prop} (h : ∀ i, T.Refines (fun s => abs s i) start R) :
    T.Refines abs (fun a => ∀ i, start (a i)) fun a b => ∀ i, ReflGen R (a i) (b i) where
  init s hs i := (h i).init s hs
  step s l s' hreach hl := ReflGen.single fun i => (h i).step s l s' hreach hl

end TransitionSystem
