import Mathlib.Logic.Relation
import Mathlib.Order.Nat

/-!
# Commitments

What a service that takes orders promises about each of them, whatever it is made of.  An order is
accepted once.  It is attempted any number of times, its owner may ask to stop it, and it ends with
one verdict, which stands for ever.  An order that was stopped before its first attempt is
withdrawn at once; one that was attempted can still end in any other way, because an attempt that
is under way may be faster than the request to stop it.

The requests, the results and the reasons of a failure are arbitrary types.
-/

/-- How an order ends. -/
inductive Verdict (ω ε : Type*)
  | succeeded (result : ω)
  | failed (reason : ε)
  | cancelled
  | expired

/-- An accepted order. -/
@[ext]
structure Commitment (ρ ω ε : Type*) where
  request : ρ
  attempts : ℕ
  /-- Its owner asked to stop it. -/
  asked : Bool
  verdict : Option (Verdict ω ε)

namespace Commitment

variable {ρ ω ε : Type*}

/-- The verdicts that an open order can end with. -/
def Allows (c : Commitment ρ ω ε) : Verdict ω ε → Prop
  | .succeeded _ | .failed _ => 1 ≤ c.attempts
  | .cancelled => c.asked
  | .expired => c.asked = false

/-- What can happen to an order, before it is accepted and after. -/
inductive Step : Option (Commitment ρ ω ε) → Option (Commitment ρ ω ε) → Prop
  | accept (request : ρ) : Step none (some ⟨request, 0, false, none⟩)
  | attempt (c) (hopen : c.verdict = none) (hasked : c.asked = false) :
      Step (some c) (some { c with attempts := c.attempts + 1 })
  | ask (c) (hopen : c.verdict = none) (hasked : c.asked = false) (hstarted : 1 ≤ c.attempts) :
      Step (some c) (some { c with asked := true })
  | withdraw (c) (hopen : c.verdict = none) (hasked : c.asked = false) :
      Step (some c) (some { c with asked := true, verdict := some .cancelled })
  | settle (c) (verdict : Verdict ω ε) (hopen : c.verdict = none) (hallows : c.Allows verdict) :
      Step (some c) (some { c with verdict := some verdict })

/-- What the history of an order leaves behind in it. -/
structure Sound (c : Commitment ρ ω ε) : Prop where
  tried : ∀ v, c.verdict = some v → c.Allows v
  stopped : c.asked → 1 ≤ c.attempts ∨ c.verdict = some .cancelled

section Step

variable {a b : Option (Commitment ρ ω ε)}

/-- Every order is sound. -/
lemma sound_of_step (h : Step a b) (hsound : ∀ c, a = some c → c.Sound) :
    ∀ c, b = some c → c.Sound := by
  cases h with
  | accept request =>
      rintro c ⟨⟩
      exact ⟨by rintro v ⟨⟩, by rintro ⟨⟩⟩
  | attempt c hopen hasked =>
      rintro c ⟨⟩
      refine ⟨fun v hv => ?_, fun h => absurd h (by simp [hasked])⟩
      cases hopen.symm.trans hv
  | ask c hopen hasked hstarted =>
      rintro c ⟨⟩
      refine ⟨fun v hv => ?_, fun _ => Or.inl hstarted⟩
      cases hopen.symm.trans hv
  | withdraw c hopen hasked =>
      rintro c ⟨⟩
      exact ⟨by rintro v ⟨⟩; rfl, fun _ => Or.inr rfl⟩
  | settle c verdict hopen hallows =>
      rintro c' ⟨⟩
      refine ⟨?_, fun hasked => ?_⟩
      · rintro v ⟨⟩
        cases verdict <;> exact hallows
      · rcases (hsound c rfl).stopped hasked with hstarted | hcancelled
        · exact Or.inl hstarted
        · cases hopen.symm.trans hcancelled

/-- What can be seen later of an order: the same request, no fewer attempts, a stop that was asked
for, and the verdict once there is one. -/
structure Extends (c d : Commitment ρ ω ε) : Prop where
  request : d.request = c.request
  attempts : c.attempts ≤ d.attempts
  asked : c.asked → d.asked
  verdict : ∀ v, c.verdict = some v → d = c

lemma Extends.refl (c : Commitment ρ ω ε) : c.Extends c :=
  ⟨rfl, le_rfl, id, fun _ _ => rfl⟩

lemma Extends.trans {c d e : Commitment ρ ω ε} (h : c.Extends d) (h' : d.Extends e) :
    c.Extends e where
  request := h'.request.trans h.request
  attempts := h.attempts.trans h'.attempts
  asked hasked := h'.asked (h.asked hasked)
  verdict v hv := by
    obtain rfl := h.verdict v hv
    exact h'.verdict v hv

lemma extends_of_step {c : Commitment ρ ω ε} (h : Step (some c) b) :
    ∃ d, b = some d ∧ c.Extends d := by
  have hno : c.verdict = none → ∀ (d : Commitment ρ ω ε) v, c.verdict = some v → d = c := by
    intro hopen d v hv
    cases hopen.symm.trans hv
  cases h with
  | attempt c hopen => exact ⟨_, rfl, rfl, Nat.le_succ _, id, hno hopen _⟩
  | ask c hopen hasked => exact ⟨_, rfl, rfl, le_rfl, fun _ => rfl, hno hopen _⟩
  | withdraw c hopen => exact ⟨_, rfl, rfl, le_rfl, fun _ => rfl, hno hopen _⟩
  | settle c verdict hopen => exact ⟨_, rfl, rfl, le_rfl, id, hno hopen _⟩

/-- An accepted order is kept, and only ever extended. -/
theorem extends_of_steps {c : Commitment ρ ω ε}
    (h : Relation.ReflTransGen Step (some c) b) : ∃ d, b = some d ∧ c.Extends d := by
  induction h with
  | refl => exact ⟨c, rfl, Extends.refl c⟩
  | tail _ hlast ih =>
      obtain ⟨d, rfl, hd⟩ := ih
      obtain ⟨e, rfl, he⟩ := extends_of_step hlast
      exact ⟨e, rfl, hd.trans he⟩

end Step

end Commitment
