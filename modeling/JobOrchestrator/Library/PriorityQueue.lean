import Mathlib.Data.List.Infix

/-!
# Priority queues, seen from their clients

A queue with several levels is used by clients who see only what they send to a level and what
they are handed from one.  `Traffic` is one such message and a list of them is what happened so
far.  The traffic is `Ordered` when every message that was handed out was the oldest one of its
level and no level above had a message waiting.  Nothing is said here about how the queue keeps its
messages.
-/

/-- A message on its way into the queue, or out of it. -/
inductive Traffic (π α : Type*)
  | sent (level : π) (message : α)
  | received (level : π) (message : α)
  deriving DecidableEq

namespace Traffic

variable {π α : Type*}

section

variable [DecidableEq π]

/-- The messages sent to a level, the oldest first. -/
def sentTo (p : π) : List (Traffic π α) → List α
  | [] => []
  | .sent q a :: log => if q = p then a :: sentTo p log else sentTo p log
  | .received _ _ :: log => sentTo p log

/-- The messages received from a level, the oldest first. -/
def receivedFrom (p : π) : List (Traffic π α) → List α
  | [] => []
  | .received q a :: log => if q = p then a :: receivedFrom p log else receivedFrom p log
  | .sent _ _ :: log => receivedFrom p log

/-- The messages that wait at a level, the oldest first. -/
def waiting (p : π) (log : List (Traffic π α)) : List α :=
  (sentTo p log).drop (receivedFrom p log).length

/-- Every message received was the oldest of its level, with none waiting above it. -/
inductive Ordered (above : π → π → Prop) : List (Traffic π α) → Prop
  | nil : Ordered above []
  | sent {log} (p : π) (a : α) (h : Ordered above log) : Ordered above (log ++ [.sent p a])
  | received {log} (p : π) (a : α) (rest : List α) (h : Ordered above log)
      (hfirst : waiting p log = a :: rest) (hurgent : ∀ q, above q p → waiting q log = []) :
      Ordered above (log ++ [.received p a])

variable {above : π → π → Prop} {log : List (Traffic π α)} {p q : π} {a : α}

@[simp] lemma sentTo_append (log' : List (Traffic π α)) :
    sentTo p (log ++ log') = sentTo p log ++ sentTo p log' := by
  induction log with
  | nil => simp [sentTo]
  | cons t log ih => cases t <;> simp [sentTo, ih, apply_ite (· ++ sentTo p log')]

@[simp] lemma receivedFrom_append (log' : List (Traffic π α)) :
    receivedFrom p (log ++ log') = receivedFrom p log ++ receivedFrom p log' := by
  induction log with
  | nil => simp [receivedFrom]
  | cons t log ih => cases t <;> simp [receivedFrom, ih, apply_ite (· ++ receivedFrom p log')]

/-- What was sent is what was received, followed by what waits. -/
theorem Ordered.sentTo_eq (h : Ordered above log) (p : π) :
    sentTo p log = receivedFrom p log ++ waiting p log := by
  induction h with
  | nil => simp [sentTo, receivedFrom, waiting]
  | @sent log q a h ih =>
      have hle : (receivedFrom p log).length ≤ (sentTo p log).length := by simp [ih]
      have hsent : receivedFrom p (log ++ [.sent q a]) = receivedFrom p log := by
        simp [receivedFrom]
      rw [waiting, hsent, sentTo_append, List.drop_append_of_le_length hle, ← List.append_assoc,
        ← waiting, ← ih]
  | @received log q a rest h hfirst hurgent ih =>
      have hreceived : sentTo p (log ++ [.received q a]) = sentTo p log := by simp [sentTo]
      rw [waiting, hreceived, receivedFrom_append]
      by_cases hq : q = p
      · subst hq
        have hreceived : receivedFrom q [Traffic.received q a] = [a] := if_pos rfl
        rw [hreceived, List.length_append, ← List.drop_drop, ← waiting, hfirst, ih, hfirst]
        simp
      · simp only [receivedFrom, if_neg hq, List.append_nil]
        exact ih

/-- The messages of a level are received in the order in which they were sent. -/
theorem Ordered.receivedFrom_prefix (h : Ordered above log) (p : π) :
    receivedFrom p log <+: sentTo p log :=
  ⟨waiting p log, (h.sentTo_eq p).symm⟩

lemma Ordered.waiting_sent (h : Ordered above log) (p q : π) (a : α) :
    waiting q (log ++ [.sent p a]) = waiting q log ++ if p = q then [a] else [] := by
  have hsum := (Ordered.sent p a h).sentTo_eq q
  have hsent : receivedFrom q (log ++ [.sent p a]) = receivedFrom q log := by simp [receivedFrom]
  rw [hsent, sentTo_append, h.sentTo_eq q, List.append_assoc] at hsum
  rw [← List.append_cancel_left hsum]
  simp only [sentTo]

lemma Ordered.waiting_received {rest : List α} (h : Ordered above log)
    (hfirst : waiting p log = a :: rest) (hurgent : ∀ q, above q p → waiting q log = []) (q : π) :
    waiting q (log ++ [.received p a]) = if p = q then rest else waiting q log := by
  have hsum := (Ordered.received p a rest h hfirst hurgent).sentTo_eq q
  have hreceived : sentTo q (log ++ [.received p a]) = sentTo q log := by simp [sentTo]
  rw [hreceived, receivedFrom_append, h.sentTo_eq q, List.append_assoc] at hsum
  have hsum := List.append_cancel_left hsum
  by_cases hq : p = q
  · subst hq
    rw [if_pos rfl]
    rw [hfirst] at hsum
    simpa [receivedFrom] using hsum.symm
  · rw [if_neg hq, hsum]
    simp [receivedFrom, hq]

end

end Traffic
