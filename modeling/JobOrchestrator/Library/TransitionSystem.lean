import Mathlib.Logic.Relation
import Mathlib.Order.Lattice.Nat
import Mathlib.Order.Monotone.Basic

/-!
# Guarded runs of a labelled transition system

A `TransitionSystem` is a set of initial states together with a partial, executable step
function: `step s l = some s'` says that the label `l` is enabled in `s` and leads to `s'`.
Safety statements about such a system are of two shapes, and this file packages the
induction behind each of them once.

* *Every reachable state satisfies `I`.*  `Reachable.invariant` reduces it to the initial
  states and to one step.
* *From a state with `I` on, `I` is never lost.*  `Steps.preserves` reduces it to one step.

Both are relative to a condition `C` on a state and the label taken there.  The condition
`fun _ _ => True` gives all runs; a proper condition gives the runs every step of which
meets it, which is how a statement that only holds while some schedule is avoided is
expressed.  `run` and `runUnder` execute a concrete list of labels, so that a concrete run
is produced by evaluation.
-/

/-- Initial states and a partial step function on labelled transitions. -/
structure TransitionSystem (σ ℓ : Type*) where
  /-- The states a run may start from. -/
  init : σ → Prop
  /-- The successor of a state under a label, if the label is enabled there. -/
  step : σ → ℓ → Option σ

namespace TransitionSystem

variable {σ ℓ : Type*} (T : TransitionSystem σ ℓ)

/-- The condition every step meets. -/
def Always : σ → ℓ → Prop := fun _ _ => True

/-- One step whose label meets the condition `C` in the state it is taken from. -/
def StepUnder (C : σ → ℓ → Prop) (s s' : σ) : Prop :=
  ∃ l, C s l ∧ T.step s l = some s'

/-- Finitely many steps, each of which meets the condition `C`. -/
def Steps (C : σ → ℓ → Prop) : σ → σ → Prop :=
  Relation.ReflTransGen (T.StepUnder C)

/-- The states of the runs that start initially and meet `C` at each step. -/
def Reachable (C : σ → ℓ → Prop) (s : σ) : Prop :=
  ∃ s₀, T.init s₀ ∧ T.Steps C s₀ s

variable {T} {C D : σ → ℓ → Prop} {s s' s'' : σ}

lemma Steps.refl (s : σ) : T.Steps C s s := Relation.ReflTransGen.refl

lemma Steps.trans (h : T.Steps C s s') (h' : T.Steps C s' s'') : T.Steps C s s'' :=
  Relation.ReflTransGen.trans h h'

lemma Steps.single {l : ℓ} (hC : C s l) (h : T.step s l = some s') : T.Steps C s s' :=
  Relation.ReflTransGen.single ⟨l, hC, h⟩

/-- A weaker condition admits more runs. -/
lemma Steps.mono (hCD : ∀ s l, C s l → D s l) (h : T.Steps C s s') : T.Steps D s s' := by
  refine Relation.ReflTransGen.mono ?_ s s' h
  rintro s s' ⟨l, hC, hstep⟩
  exact ⟨l, hCD s l hC, hstep⟩

/-- **The run rule.**  What one step preserves, a run preserves. -/
theorem Steps.preserves {I : σ → Prop}
    (hstep : ∀ s l s', C s l → T.step s l = some s' → I s → I s')
    (h : T.Steps C s s') (hs : I s) : I s' := by
  induction h with
  | refl => exact hs
  | tail _ hlast ih =>
      obtain ⟨l, hC, hl⟩ := hlast
      exact hstep _ l _ hC hl ih

lemma Reachable.start (h : T.init s) : T.Reachable C s := ⟨s, h, Steps.refl s⟩

lemma Reachable.steps (h : T.Reachable C s) (h' : T.Steps C s s') : T.Reachable C s' := by
  obtain ⟨s₀, hinit, hrun⟩ := h
  exact ⟨s₀, hinit, hrun.trans h'⟩

lemma Reachable.mono (hCD : ∀ s l, C s l → D s l) (h : T.Reachable C s) : T.Reachable D s := by
  obtain ⟨s₀, hinit, hrun⟩ := h
  exact ⟨s₀, hinit, hrun.mono hCD⟩

/-- **The run rule from a reachable state.**  The step may use that its source is reachable. -/
theorem Reachable.preserves {I : σ → Prop} (h : T.Reachable D s) (hCD : ∀ s l, C s l → D s l)
    (hstep : ∀ s l s', T.Reachable D s → C s l → T.step s l = some s' → I s → I s')
    (hsteps : T.Steps C s s') (hs : I s) : I s' := by
  have hboth : T.Reachable D s' ∧ I s' := by
    refine Steps.preserves (I := fun s => T.Reachable D s ∧ I s) ?_ hsteps ⟨h, hs⟩
    rintro s l s' hC hl ⟨hreach, hi⟩
    exact ⟨hreach.steps (Steps.single (hCD s l hC) hl), hstep s l s' hreach hC hl hi⟩
  exact hboth.2

/-- **The invariant rule.**  A property of the initial states that every admitted step
preserves holds in every reachable state.  The step may use that its source is reachable,
so invariants can be established one on top of the other. -/
theorem Reachable.invariant {I : σ → Prop} (hinit : ∀ s, T.init s → I s)
    (hstep : ∀ s l s', T.Reachable C s → C s l → T.step s l = some s' → I s → I s')
    (h : T.Reachable C s) : I s := by
  obtain ⟨s₀, h₀, hrun⟩ := h
  exact (Reachable.start h₀).preserves (fun _ _ hC => hC) hstep hrun (hinit s₀ h₀)

/-! ## Executing a list of labels -/

variable (T) in
/-- Take the labels one after the other; `none` as soon as one is not enabled. -/
def run (s : σ) (ls : List ℓ) : Option σ := ls.foldlM T.step s

variable (T) in
/-- Like `run`, and `none` as soon as a step does not meet the condition. -/
def runUnder (C : σ → ℓ → Prop) [∀ s l, Decidable (C s l)] (s : σ) (ls : List ℓ) : Option σ :=
  ls.foldlM (fun s l => if C s l then T.step s l else none) s

lemma steps_of_runUnder [∀ s l, Decidable (C s l)] {ls : List ℓ}
    (h : T.runUnder C s ls = some s') : T.Steps C s s' := by
  induction ls generalizing s with
  | nil =>
      obtain rfl : s = s' := by simpa [runUnder] using h
      exact Steps.refl s
  | cons l ls ih =>
      rw [runUnder, List.foldlM_cons] at h
      obtain ⟨t, ht, hrest⟩ := Option.bind_eq_some_iff.mp h
      split at ht
      · rename_i hC
        exact (Steps.single hC ht).trans (ih hrest)
      · cases ht

lemma steps_of_run {ls : List ℓ} (h : T.run s ls = some s') : T.Steps Always s s' := by
  induction ls generalizing s with
  | nil =>
      obtain rfl : s = s' := by simpa [run] using h
      exact Steps.refl s
  | cons l ls ih =>
      rw [run, List.foldlM_cons] at h
      obtain ⟨t, ht, hrest⟩ := Option.bind_eq_some_iff.mp h
      exact (Steps.single trivial ht).trans (ih hrest)

/-- A concrete run ends in a state with a property that its last state is computed to have. -/
lemma exists_of_run (s : σ) (ls : List ℓ) (p : σ → Bool) (h : (T.run s ls).any p) :
    ∃ s', T.Steps Always s s' ∧ p s' := by
  obtain ⟨s', hs', hp⟩ := (Option.any_eq_true ..).mp h
  exact ⟨s', steps_of_run hs', hp⟩

lemma exists_of_runUnder [∀ s l, Decidable (C s l)] (s : σ) (ls : List ℓ) (p : σ → Bool)
    (h : (T.runUnder C s ls).any p) : ∃ s', T.Steps C s s' ∧ p s' := by
  obtain ⟨s', hs', hp⟩ := (Option.any_eq_true ..).mp h
  exact ⟨s', steps_of_runUnder hs', hp⟩

/-! ## Properties of every step of a run -/

variable (T) in
/-- Every step that the list of labels takes from `s` satisfies `P`. -/
def Along (P : σ → ℓ → σ → Prop) : σ → List ℓ → Prop
  | _, [] => True
  | s, l :: ls =>
      match T.step s l with
      | none => True
      | some s' => P s l s' ∧ Along P s' ls

instance decidableAlong {P : σ → ℓ → σ → Prop} [∀ s l s', Decidable (P s l s')] :
    ∀ s ls, Decidable (T.Along P s ls)
  | _, [] => isTrue trivial
  | s, l :: ls =>
      match h : T.step s l with
      | none => isTrue (by rw [Along, h]; trivial)
      | some s' =>
          haveI := decidableAlong (P := P) s' ls
          decidable_of_iff (P s l s' ∧ T.Along P s' ls) (by rw [Along, h])

/-- A run whose steps all meet a condition on where they start and on their label. -/
lemma Along.steps {ls : List ℓ} (h : T.Along (fun s l _ => C s l) s ls)
    (hrun : T.run s ls = some s') : T.Steps C s s' := by
  induction ls generalizing s with
  | nil =>
      obtain rfl : s = s' := by simpa [run] using hrun
      exact Steps.refl s
  | cons l ls ih =>
      rw [run, List.foldlM_cons] at hrun
      obtain ⟨t, ht, hrest⟩ := Option.bind_eq_some_iff.mp hrun
      rw [Along, ht] at h
      exact (Steps.single h.1 ht).trans (ih h.2 hrest)

lemma along_of_forall {P : σ → ℓ → σ → Prop} {ls : List ℓ} (h : ∀ l ∈ ls, ∀ s s', P s l s') :
    T.Along P s ls := by
  induction ls generalizing s with
  | nil => exact trivial
  | cons l ls ih =>
      rw [List.forall_mem_cons] at h
      unfold Along
      cases T.step s l with
      | none => exact trivial
      | some s' => exact ⟨h.1 s s', ih h.2⟩

/-- **The rule for equivalent conditions.**  While an invariant holds, two conditions on a step
agree, and a step that meets them keeps the invariant: then they agree along every run. -/
theorem along_iff {I : σ → Prop} {P Q : σ → ℓ → σ → Prop} (hs : I s)
    (hPQ : ∀ s l s', T.step s l = some s' → I s → (P s l s' ↔ Q s l s'))
    (hkeep : ∀ s l s', T.step s l = some s' → I s → Q s l s' → I s')
    (ls : List ℓ) : T.Along P s ls ↔ T.Along Q s ls := by
  induction ls generalizing s with
  | nil => exact Iff.rfl
  | cons l ls ih =>
      unfold Along
      cases hstep : T.step s l with
      | none => exact Iff.rfl
      | some s' =>
          have hiff : P s l s' ↔ Q s l s' := hPQ s l s' hstep hs
          constructor
          · rintro ⟨hP, hrest⟩
            have hs' : I s' := hkeep s l s' hstep hs (hiff.mp hP)
            exact ⟨hiff.mp hP, (ih hs').mp hrest⟩
          · rintro ⟨hQ, hrest⟩
            have hs' : I s' := hkeep s l s' hstep hs hQ
            exact ⟨hiff.mpr hQ, (ih hs').mpr hrest⟩

/-- Along a run whose steps all satisfy `K`, two properties that agree on such steps agree. -/
lemma along_iff_of_along {K P Q : σ → ℓ → σ → Prop} {ls : List ℓ} (h : T.Along K s ls)
    (hPQ : ∀ s l s', K s l s' → (P s l s' ↔ Q s l s')) : T.Along P s ls ↔ T.Along Q s ls := by
  induction ls generalizing s with
  | nil => exact Iff.rfl
  | cons l ls ih =>
      unfold Along at h ⊢
      cases hstep : T.step s l with
      | none => exact Iff.rfl
      | some s' =>
          rw [hstep] at h
          exact and_congr (hPQ s l s' h.1) (ih h.2)

/-- What is the same for every step from a reachable state is the same along every run. -/
theorem along_congr {P Q : σ → ℓ → σ → Prop} (h : T.Reachable Always s)
    (hPQ : ∀ s l s', T.Reachable Always s → T.step s l = some s' → (P s l s' ↔ Q s l s'))
    (ls : List ℓ) : T.Along P s ls ↔ T.Along Q s ls := by
  refine along_iff h (fun s l s' hstep hreach => hPQ s l s' hreach hstep) ?_ ls
  intro s l s' hstep hreach _
  exact hreach.steps (Steps.single trivial hstep)

/-- When, from a state that satisfies the invariant, a step keeps it exactly under a condition,
a run keeps it throughout exactly when every step meets the condition. -/
theorem along_iff_of_invariant {I : σ → Prop} {Q : σ → ℓ → σ → Prop}
    (h : T.Reachable Always s) (hs : I s)
    (hIQ : ∀ s l s', T.Reachable Always s → T.step s l = some s' → I s → (I s' ↔ Q s l s'))
    (ls : List ℓ) : T.Along (fun _ _ s' => I s') s ls ↔ T.Along Q s ls := by
  have hboth : T.Reachable Always s ∧ I s := ⟨h, hs⟩
  refine along_iff (I := fun s => T.Reachable Always s ∧ I s) hboth ?_ ?_ ls
  · rintro s l s' hstep ⟨hreach, hI⟩
    exact hIQ s l s' hreach hstep hI
  · rintro s l s' hstep ⟨hreach, hI⟩ hQ
    exact ⟨hreach.steps (Steps.single trivial hstep), (hIQ s l s' hreach hstep hI).mpr hQ⟩

/-! ## Unending runs -/

/-- **The rule for bounded progress.**  A count that is bounded, and that grows again after every
moment at which the goal is not reached, stops at the goal. -/
theorem exists_of_bounded {count : ℕ → ℕ} {bound : ℕ} {goal : ℕ → Prop} (hmono : Monotone count)
    (hbound : ∀ k, count k ≤ bound)
    (hprogress : ∀ k, ¬ goal k → ∃ k' ≥ k, count k' < count (k' + 1)) : ∃ k, goal k := by
  by_contra hnever
  have hgrows : ∀ n, ∃ k, n ≤ count k := by
    intro n
    induction n with
    | zero => exact ⟨0, Nat.zero_le _⟩
    | succ n ih =>
        obtain ⟨k, hk⟩ := ih
        obtain ⟨k', hle, hlt⟩ := hprogress k fun hgoal => hnever ⟨k, hgoal⟩
        exact ⟨k' + 1, (hk.trans (hmono hle)).trans_lt hlt⟩
  obtain ⟨k, hk⟩ := hgrows (bound + 1)
  exact absurd (hbound k) (by omega)

/-! ## Observed runs -/

section Observing

variable {γ : Type*}

variable (T) in
/-- The runs of `T` together with something that is computed along them and that they do not
depend on: a count, a log, the time of a last event. -/
def observing (start : γ) (watch : γ → σ → ℓ → σ → γ) : TransitionSystem (σ × γ) ℓ where
  init p := T.init p.1 ∧ p.2 = start
  step p l := (T.step p.1 l).map fun s' => (s', watch p.2 p.1 l s')

variable {start : γ} {watch : γ → σ → ℓ → σ → γ} {p p' : σ × γ} {l : ℓ}

lemma observing_step : (T.observing start watch).step p l = some p' ↔
    T.step p.1 l = some p'.1 ∧ p'.2 = watch p.2 p.1 l p'.1 := by
  unfold observing
  dsimp only
  rw [Option.map_eq_some_iff]
  constructor
  · rintro ⟨s', hstep, rfl⟩
    exact ⟨hstep, rfl⟩
  · rintro ⟨hstep, hwatch⟩
    exact ⟨p'.1, hstep, Prod.ext rfl hwatch.symm⟩

lemma Steps.of_observing {D : σ × γ → ℓ → Prop}
    (h : (T.observing start watch).Steps D p p') (hD : ∀ p l, D p l → C p.1 l) :
    T.Steps C p.1 p'.1 := by
  refine Steps.preserves (I := fun q => T.Steps C p.1 q.1) ?_ h (Steps.refl p.1)
  intro q l q' hq hstep hbefore
  exact hbefore.trans (Steps.single (hD q l hq) (observing_step.mp hstep).1)

lemma Reachable.of_observing {D : σ × γ → ℓ → Prop}
    (h : (T.observing start watch).Reachable D p) (hD : ∀ p l, D p l → C p.1 l) :
    T.Reachable C p.1 := by
  obtain ⟨p₀, ⟨hinit, -⟩, hsteps⟩ := h
  exact ⟨p₀.1, hinit, hsteps.of_observing hD⟩

/-- Every run can be observed. -/
lemma Steps.observed (h : T.Steps C s s') (g : γ) :
    ∃ g', (T.observing start watch).Steps (fun p l => C p.1 l) (s, g) (s', g') := by
  refine Steps.preserves (I := fun t => ∃ g',
    (T.observing start watch).Steps (fun p l => C p.1 l) (s, g) (t, g')) ?_ h ⟨g, Steps.refl _⟩
  rintro t l t' hC hstep ⟨g', hbefore⟩
  refine ⟨watch g' t l t', hbefore.trans (Steps.single hC ?_)⟩
  exact observing_step.mpr ⟨hstep, rfl⟩

lemma Reachable.observed (h : T.Reachable C s) :
    ∃ g, (T.observing start watch).Reachable (fun p l => C p.1 l) (s, g) := by
  obtain ⟨s₀, hinit, hsteps⟩ := h
  have hobserved : ∃ g, (T.observing start watch).Steps (fun p l => C p.1 l) (s₀, start) (s, g) :=
    hsteps.observed start
  obtain ⟨g, hobserved⟩ := hobserved
  exact ⟨g, (s₀, start), ⟨hinit, rfl⟩, hobserved⟩

end Observing

/-! ## Runs without an end -/

section Path

variable {α : Type*} {p : ℕ → σ} {f : σ → ℕ} {g : σ → α}

variable (T) in
/-- A run that goes on forever. -/
structure Path (p : ℕ → σ) : Prop where
  init : T.init (p 0)
  step : ∀ n, ∃ l, T.step (p n) l = some (p (n + 1))

lemma Path.steps (h : T.Path p) {n m : ℕ} (hnm : n ≤ m) : T.Steps Always (p n) (p m) := by
  induction m, hnm using Nat.le_induction with
  | base => exact Steps.refl _
  | succ m _ ih =>
      obtain ⟨l, hl⟩ := h.step m
      exact ih.trans (Steps.single trivial hl)

lemma Path.reachable (h : T.Path p) (n : ℕ) : T.Reachable Always (p n) :=
  ⟨p 0, h.init, h.steps n.zero_le⟩

variable (T) in
/-- A run that goes on forever, each of whose steps meets the condition `C`. -/
structure PathUnder (C : σ → ℓ → Prop) (p : ℕ → σ) : Prop where
  init : T.init (p 0)
  step : ∀ n, T.StepUnder C (p n) (p (n + 1))

lemma PathUnder.path (h : T.PathUnder C p) : T.Path p := by
  refine ⟨h.init, fun n => ?_⟩
  obtain ⟨l, -, hl⟩ := h.step n
  exact ⟨l, hl⟩

lemma PathUnder.reachable (h : T.PathUnder C p) (n : ℕ) : T.Reachable C (p n) := by
  induction n with
  | zero => exact .start h.init
  | succ n ih => exact ih.steps (Relation.ReflTransGen.single (h.step n))

/-- A run, and a run without an end from its last state, are one run without an end. -/
lemma exists_pathUnder_of_steps {q : ℕ → σ} (h : T.Steps C s s') (hq : q 0 = s')
    (hnext : ∀ n, T.StepUnder C (q n) (q (n + 1))) :
    ∃ (p : ℕ → σ) (N : ℕ), p 0 = s ∧ (∀ n, T.StepUnder C (p n) (p (n + 1))) ∧
      ∀ n, N ≤ n → p n = q (n - N) := by
  induction h using Relation.ReflTransGen.head_induction_on with
  | refl => exact ⟨q, 0, hq, hnext, fun n _ => rfl⟩
  | @head s t hfirst _ ih =>
      obtain ⟨p, N, rfl, hsteps, hlast⟩ := ih
      refine ⟨fun n => n.casesOn s p, N + 1, rfl, fun n => ?_, fun n hn => ?_⟩
      · cases n with
        | zero => exact hfirst
        | succ n => exact hsteps n
      · cases n with
        | zero => omega
        | succ n =>
            rw [Nat.add_sub_add_right]
            exact hlast n (Nat.le_of_succ_le_succ hn)

lemma exists_path_of_steps {q : ℕ → σ} (h : T.Steps Always s s') (hq : q 0 = s')
    (hnext : ∀ n, ∃ l, T.step (q n) l = some (q (n + 1))) :
    ∃ (p : ℕ → σ) (N : ℕ), p 0 = s ∧ (∀ n, ∃ l, T.step (p n) l = some (p (n + 1))) ∧
      ∀ n, N ≤ n → p n = q (n - N) := by
  obtain ⟨p, N, hstart, hsteps, hlast⟩ := exists_pathUnder_of_steps h hq fun n => by
    obtain ⟨l, hl⟩ := hnext n
    exact ⟨l, trivial, hl⟩
  refine ⟨p, N, hstart, fun n => ?_, hlast⟩
  obtain ⟨l, -, hl⟩ := hsteps n
  exact ⟨l, hl⟩

/-- **The rule for what settles.**  What changes only in steps that raise a bounded quantity changes
finitely often, if no step lowers the quantity. -/
theorem Path.settles {B : ℕ} (h : T.Path p) (hbound : ∀ n, f (p n) ≤ B)
    (hstep : ∀ s l s', T.Reachable Always s → T.step s l = some s' →
      f s < f s' ∨ (f s' = f s ∧ g s' = g s)) :
    ∃ N, ∀ n, N ≤ n → g (p n) = g (p N) := by
  have hbounded : BddAbove (Set.range fun n => f (p n)) :=
    ⟨B, by rintro _ ⟨n, rfl⟩; exact hbound n⟩
  obtain ⟨N, hN⟩ := Nat.sSup_mem (Set.range_nonempty fun n => f (p n)) hbounded
  have hmax : ∀ n, f (p n) ≤ f (p N) := fun n =>
    (le_csSup hbounded (Set.mem_range_self n)).trans hN.ge
  have hlast : ∀ n, N ≤ n → f (p n) = f (p N) ∧ g (p n) = g (p N) := by
    intro n hn
    induction n, hn using Nat.le_induction with
    | base => exact ⟨rfl, rfl⟩
    | succ n _ ih =>
        obtain ⟨l, hl⟩ := h.step n
        have hle := hmax (n + 1)
        rcases hstep _ l _ (h.reachable n) hl with hless | ⟨hsame, heq⟩
        · omega
        · exact ⟨hsame.trans ih.1, heq.trans ih.2⟩
  exact ⟨N, fun n hn => (hlast n hn).2⟩

end Path

end TransitionSystem
