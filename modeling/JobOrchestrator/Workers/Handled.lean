import JobOrchestrator.Domain.Handlers
import JobOrchestrator.Workers.Drain

/-!
# An execution and its handler

The system lets a handler await its callbacks in any order.  Here the handler of one consumer task
is a program: it makes the calls of its script one after the other and ends as the script does, and
everything else in the system goes on as it likes.  A checkpoint that finds the job cancelled
raises, which ends the handler early.
-/

namespace JobOrchestrator

open TransitionSystem

/-- An action of a consumer task that its handler takes. -/
def WorkerAction.ofHandler : WorkerAction → Bool
  | .checkCancelled | .reportProgress .. | .handlerReturns _ | .handlerRaises _ => true
  | _ => false

def Label.ofHandler {concurrency : ℕ} (c : Coroutine concurrency) : Label concurrency → Bool
  | .worker d action => d = c && action.ofHandler
  | _ => false

/-- The handler of the task is running. -/
def System.handling {concurrency : ℕ} (s : System concurrency) (c : Coroutine concurrency) : Bool :=
  match s.workers c with
  | .executing ⟨_, _, _, _, .handler, _⟩ => true
  | _ => false

/-- The system, the calls that the handler has made, and those it has still to make, until it
ends. -/
structure Handled (concurrency : ℕ) where
  system : System concurrency
  made : List ContextCall
  remaining : Option (List ContextCall)

inductive HandledLabel (concurrency : ℕ)
  /-- The handler makes its next call, whose callback reads the clock as `now`, or ends. -/
  | handler (now : Time)
  | other (l : Label concurrency)

namespace Handled

variable (settings : Settings) (c : Coroutine settings.workerConcurrency) (exit : HandlerExit)
  (h : Handled settings.workerConcurrency)

/-- What a call does to the system.  A progress that is no percentage violates
`ck_jobs_progress_range`. -/
def call (now : Time) : ContextCall → Option (System settings.workerConcurrency)
  | .checkCancelled => h.system.step settings (.worker c .checkCancelled)
  | .sleep _ => some h.system
  | .reportProgress progress =>
      if hrange : 0 ≤ progress ∧ progress ≤ 100 then
        h.system.step settings (.worker c (.reportProgress ⟨progress.toNat, by omega⟩ now))
      else none

/-- The handler goes on with `rest` unless its execution has left it. -/
def after (system : System settings.workerConcurrency) (made : List ContextCall)
    (rest : Option (List ContextCall)) : Handled settings.workerConcurrency :=
  ⟨system, made, if system.handling c then rest else none⟩

def step : HandledLabel settings.workerConcurrency → Option (Handled settings.workerConcurrency)
  | .handler now =>
      match h.remaining with
      | none => none
      | some [] =>
          (h.system.step settings (.worker c exit.action)).map fun system =>
            after settings c system h.made none
      | some (call :: rest) =>
          (h.call settings c now call).map fun system =>
            after settings c system (h.made ++ [call]) (some rest)
  | .other l =>
      if h.remaining.isSome && l.ofHandler c then none
      else (h.system.step settings l).map fun system => after settings c system h.made h.remaining

end Handled

/-- The runs of the system in which the handler of the task obeys its script. -/
def handled (settings : Settings) (c : Coroutine settings.workerConcurrency) (exit : HandlerExit) :
    TransitionSystem (Handled settings.workerConcurrency)
      (HandledLabel settings.workerConcurrency) where
  init h := h.made = [] ∧ h.remaining.isSome ∧ h.system.handling c
  step h l := h.step settings c exit l

section Steps

variable {settings : Settings} {c : Coroutine settings.workerConcurrency} {exit : HandlerExit}
  {h h' : Handled settings.workerConcurrency}

lemma handled_step (l : HandledLabel settings.workerConcurrency) :
    (handled settings c exit).step h l = h.step settings c exit l := rfl

lemma handling_iff {s : System settings.workerConcurrency} :
    s.handling c ↔ ∃ e, s.workers c = .executing e ∧ e.stage = .handler := by
  unfold System.handling
  constructor
  · intro hhandling
    split at hhandling
    · rename_i he
      exact ⟨_, he, rfl⟩
    · cases hhandling
  · rintro ⟨⟨_, _, _, _, _, _⟩, he, rfl⟩
    rw [he]

lemma after_of_handling {system : System settings.workerConcurrency} {made : List ContextCall}
    {rest : Option (List ContextCall)} (h : system.handling c) :
    Handled.after settings c system made rest = ⟨system, made, rest⟩ := by
  rw [Handled.after, if_pos h]

lemma after_of_not_handling {system : System settings.workerConcurrency} {made : List ContextCall}
    {rest : Option (List ContextCall)} (h : ¬ system.handling c) :
    Handled.after settings c system made rest = ⟨system, made, none⟩ := by
  rw [Handled.after, if_neg h]

lemma handled_other {l : Label settings.workerConcurrency}
    {system : System settings.workerConcurrency} (hfree : h.remaining.isSome → ¬ l.ofHandler c)
    (hstep : h.system.step settings l = some system) :
    (handled settings c exit).step h (.other l) =
      some (.after settings c system h.made h.remaining) := by
  have hguard : ¬ (h.remaining.isSome && l.ofHandler c) := fun hboth => by
    rw [Bool.and_eq_true] at hboth
    exact hfree hboth.1 hboth.2
  rw [handled_step, Handled.step, if_neg hguard, hstep, Option.map_some]

/-- What the handler and the rest of the system can do. -/
inductive HandledStep (exit : HandlerExit) (c : Coroutine settings.workerConcurrency)
    (h : Handled settings.workerConcurrency) :
    HandledLabel settings.workerConcurrency → Handled settings.workerConcurrency → Prop
  | called (now call rest system) (hremaining : h.remaining = some (call :: rest))
      (hcall : h.call settings c now call = some system) :
      HandledStep exit c h (.handler now)
        (.after settings c system (h.made ++ [call]) (some rest))
  | left (now system) (hremaining : h.remaining = some [])
      (hexit : h.system.step settings (.worker c exit.action) = some system) :
      HandledStep exit c h (.handler now) (.after settings c system h.made none)
  | other (l system) (hfree : h.remaining.isSome → ¬ l.ofHandler c)
      (hstep : h.system.step settings l = some system) :
      HandledStep exit c h (.other l) (.after settings c system h.made h.remaining)

/-- **Inversion.** -/
lemma handledStep_of_step {l : HandledLabel settings.workerConcurrency}
    (hstep : (handled settings c exit).step h l = some h') : HandledStep exit c h l h' := by
  rw [handled_step] at hstep
  cases l with
  | handler now =>
      simp only [Handled.step] at hstep
      split at hstep
      · cases hstep
      · rename_i hremaining
        obtain ⟨system, hsystem, rfl⟩ := Option.map_eq_some_iff.mp hstep
        exact .left now system hremaining hsystem
      · rename_i call rest hremaining
        obtain ⟨system, hsystem, rfl⟩ := Option.map_eq_some_iff.mp hstep
        exact .called now call rest system hremaining hsystem
  | other l =>
      simp only [Handled.step] at hstep
      split at hstep
      · cases hstep
      · rename_i hfree
        obtain ⟨system, hsystem, rfl⟩ := Option.map_eq_some_iff.mp hstep
        refine .other l system (fun hsome hhandler => hfree ?_) hsystem
        rw [hsome, hhandler]
        rfl

end Steps

end JobOrchestrator
