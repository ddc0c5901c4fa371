import Mathlib.Data.List.Nodup
import Mathlib.Data.List.Perm.Subperm
import Mathlib.Data.List.Dedup

/-!
# Sweeps in batches

A sweep selects at most a given number of the items that are eligible, works on each of them on
its own, and reports how many they were.  `BatchSweep` says when such a sweep makes progress: it
only leaves an eligible item aside when its batch is full, and an item it worked on is eligible no
more.

Then the size of the batches does not matter.  Repeating the sweep until it reports zero ends
(`exists_repeated`), and what it has done by then, to every item and in total, is what one sweep
with room for all of them does (`repeated_eq_one`).

Several sweeps that run one after the other leave nothing eligible for any of them, if none makes
eligible again what an earlier one has done (`settled_of_foldlM`).
-/

/-- What a sweep leaves behind: the state, what it sent, and the number of items it worked on. -/
structure Batch (σ β : Type*) where
  state : σ
  sent : List β
  handled : ℕ

namespace Batch

variable {σ κ β : Type*} (run : κ → σ → Option (Batch σ β))

/-- Run a sweep until it works on nothing; `none` if a run fails, or if there are not enough
draws. -/
def repeated : List κ → σ → Option (Batch σ β)
  | [], _ => none
  | k :: ks, s => (run k s).bind fun b =>
      if b.handled = 0 then some b
      else (repeated ks b.state).map fun rest =>
        ⟨rest.state, b.sent ++ rest.sent, b.handled + rest.handled⟩

/-- No run of the repetition fails. -/
def Succeeds : List κ → σ → Prop
  | [], _ => True
  | k :: ks, s => ∃ b, run k s = some b ∧ (b.handled ≠ 0 → Succeeds ks b.state)

variable {run}

/-- A sweep that never fails. -/
lemma succeeds_of_isSome (h : ∀ k s, (run k s).isSome) (ks : List κ) (s : σ) :
    Succeeds run ks s := by
  induction ks generalizing s with
  | nil => trivial
  | cons k ks ih =>
      obtain ⟨b, hb⟩ := Option.isSome_iff_exists.mp (h k s)
      exact ⟨b, hb, fun _ => ih b.state⟩

/-- A sweep that always finds something is repeated forever. -/
lemma repeated_eq_none {I : σ → Prop}
    (hrun : ∀ k s, I s → ∃ b, run k s = some b ∧ b.handled ≠ 0 ∧ I b.state) (ks : List κ) {s : σ}
    (hs : I s) : repeated run ks s = none := by
  induction ks generalizing s with
  | nil => rfl
  | cons k ks ih =>
      obtain ⟨b, hb, hsome, hkept⟩ := hrun k s hs
      rw [repeated, hb, Option.bind_some, if_neg hsome, ih hkept]
      rfl

end Batch

/-- A sweep over the items of a state, of which `view` shows one.  Each run draws something from
outside, and may fail. -/
structure BatchSweep (σ ι ρ κ β : Type*) [DecidableEq ι] where
  view : σ → ι → ρ
  /-- The states on which the sweep is run. -/
  sound : σ → Prop
  eligible : ρ → Prop
  effect : κ → ρ → ρ
  sends : ι → ρ → List β
  select : ℕ → σ → List ι
  run : ℕ → κ → σ → Option (Batch σ β)
  nodup : ∀ {n s}, sound s → (select n s).Nodup
  eligible_of_mem : ∀ {n s i}, i ∈ select n s → eligible (view s i)
  full : ∀ {n s i}, eligible (view s i) → i ∉ select n s → (select n s).length = n
  idle : ∀ {n k s}, select n s = [] → run n k s = some ⟨s, [], 0⟩
  view_run : ∀ {n k s b}, sound s → run n k s = some b →
    ∀ i, view b.state i = if i ∈ select n s then effect k (view s i) else view s i
  sent_run : ∀ {n k s b}, sound s → run n k s = some b →
    b.sent.Perm ((select n s).flatMap fun i => sends i (view s i))
  handled_run : ∀ {n k s b}, sound s → run n k s = some b → b.handled = (select n s).length
  sound_run : ∀ {n k s b}, sound s → run n k s = some b → sound b.state
  done : ∀ {k s i}, sound s → eligible (view s i) → ¬ eligible (effect k (view s i))

namespace BatchSweep

variable {σ ι ρ κ β : Type*} [DecidableEq ι] (S : BatchSweep σ ι ρ κ β)

/-- The items that are eligible in a state. -/
def Eligibles (s : σ) (items : List ι) : Prop :=
  items.Nodup ∧ ∀ i, i ∈ items ↔ S.eligible (S.view s i)

variable {S} {n m : ℕ} {k : κ} {ks : List κ} {s : σ} {b one : Batch σ β} {items : List ι} {i : ι}

/-- A sweep with room for everything selects everything. -/
lemma mem_select_of_le (h : S.Eligibles s items) (hsound : S.sound s)
    (hroom : items.length ≤ n) (hi : S.eligible (S.view s i)) : i ∈ S.select n s := by
  by_contra hout
  have hsub : (i :: S.select n s).Subperm items := by
    refine List.subperm_of_subset (List.nodup_cons.mpr ⟨hout, S.nodup hsound⟩) ?_
    intro j hj
    rcases List.mem_cons.mp hj with rfl | hj
    · exact (h.2 j).mpr hi
    · exact (h.2 j).mpr (S.eligible_of_mem hj)
  have hlength := hsub.length_le
  rw [List.length_cons, S.full hi hout] at hlength
  omega

lemma eligibles_select (h : S.Eligibles s items) (hsound : S.sound s)
    (hroom : items.length ≤ n) : S.Eligibles s (S.select n s) :=
  ⟨S.nodup hsound, fun _ => ⟨S.eligible_of_mem, mem_select_of_le h hsound hroom⟩⟩

/-- A sweep with room for everything leaves nothing eligible. -/
lemma not_eligible_of_run (h : S.Eligibles s items) (hsound : S.sound s)
    (hroom : items.length ≤ n) (hrun : S.run n k s = some b) (i : ι) :
    ¬ S.eligible (S.view b.state i) := by
  rw [S.view_run hsound hrun i]
  split
  · rename_i hi
    exact S.done hsound (S.eligible_of_mem hi)
  · rename_i hi
    exact fun heligible => hi (mem_select_of_le h hsound hroom heligible)

/-- The eligible items are those of the batch and those that are left. -/
lemma perm_select (h : S.Eligibles s items) (hsound : S.sound s) :
    items.Perm (S.select n s ++ items.filter fun i => i ∉ S.select n s) := by
  have hnodup : (S.select n s ++ items.filter fun i => i ∉ S.select n s).Nodup := by
    refine (S.nodup hsound).append (h.1.filter _) ?_
    intro i hi hleft
    simp only [List.mem_filter, decide_eq_true_eq] at hleft
    exact hleft.2 hi
  refine (List.perm_ext_iff_of_nodup h.1 hnodup).mpr fun i => ?_
  simp only [List.mem_append, List.mem_filter, decide_eq_true_eq]
  constructor
  · intro hi
    by_cases hselected : i ∈ S.select n s
    · exact Or.inl hselected
    · exact Or.inr ⟨hi, hselected⟩
  · rintro (hselected | ⟨hi, -⟩)
    · exact (h.2 i).mpr (S.eligible_of_mem hselected)
    · exact hi

/-- After a run, those that are left are eligible. -/
lemma eligibles_of_run (h : S.Eligibles s items) (hsound : S.sound s)
    (hrun : S.run n k s = some b) :
    S.Eligibles b.state (items.filter fun i => i ∉ S.select n s) := by
  refine ⟨h.1.filter _, fun i => ?_⟩
  rw [S.view_run hsound hrun i]
  simp only [List.mem_filter, decide_eq_true_eq]
  split
  · rename_i hselected
    have heligible := S.eligible_of_mem hselected
    exact iff_of_false (fun hleft => hleft.2 hselected) (S.done hsound heligible)
  · rename_i hselected
    rw [and_iff_left hselected]
    exact h.2 i

/-- A sweep that works on nothing finds nothing. -/
lemma eq_nil_of_handled (hn : 1 ≤ n) (h : S.Eligibles s items) (hsound : S.sound s)
    (hrun : S.run n k s = some b) (hnone : b.handled = 0) : items = [] ∧ S.select n s = [] := by
  rw [S.handled_run hsound hrun, List.length_eq_zero_iff] at hnone
  refine ⟨List.eq_nil_iff_forall_not_mem.mpr fun i hi => ?_, hnone⟩
  have hfull := S.full ((h.2 i).mp hi) (by rw [hnone]; exact List.not_mem_nil)
  rw [hnone, List.length_nil] at hfull
  omega

lemma length_left (h : S.Eligibles s items) (hsound : S.sound s) (hrun : S.run n k s = some b) :
    items.length = b.handled + (items.filter fun i => i ∉ S.select n s).length := by
  rw [(perm_select h hsound).length_eq, List.length_append, S.handled_run hsound hrun]

/-- **Termination.**  With a draw more than there are eligible items the repetition ends. -/
theorem exists_repeated (h : S.Eligibles s items) (hsound : S.sound s)
    (hlong : items.length < ks.length) (hsucceeds : Batch.Succeeds (S.run n) ks s) :
    ∃ b, Batch.repeated (S.run n) ks s = some b := by
  induction ks generalizing s items with
  | nil => exact absurd hlong (Nat.not_lt_zero _)
  | cons k ks ih =>
      obtain ⟨b, hrun, hrest⟩ := hsucceeds
      rw [Batch.repeated, hrun, Option.bind_some]
      split
      · exact ⟨b, rfl⟩
      · rename_i hsome
        have hlength := length_left h hsound hrun
        rw [List.length_cons] at hlong
        obtain ⟨rest, hrest⟩ := ih (eligibles_of_run h hsound hrun) (S.sound_run hsound hrun)
          (by omega) (hrest hsome)
        exact ⟨_, by rw [hrest]; rfl⟩

/-- **What the repetition does.**  It works on every eligible item once, on no other, and leaves
none behind. -/
theorem repeated_spec (hn : 1 ≤ n) (h : S.Eligibles s items) (hsound : S.sound s)
    (hrepeated : Batch.repeated (S.run n) ks s = some b) :
    S.sound b.state ∧ S.Eligibles b.state [] ∧
      (∀ i, i ∉ items → S.view b.state i = S.view s i) ∧
      (∀ i ∈ items, ∃ k ∈ ks, S.view b.state i = S.effect k (S.view s i)) ∧
      b.sent.Perm (items.flatMap fun i => S.sends i (S.view s i)) ∧ b.handled = items.length := by
  induction ks generalizing s items b with
  | nil => cases hrepeated
  | cons k ks ih =>
      rw [Batch.repeated] at hrepeated
      obtain ⟨b₁, hrun, hrest⟩ := Option.bind_eq_some_iff.mp hrepeated
      have hview := S.view_run hsound hrun
      have hsent := S.sent_run hsound hrun
      have hleft := eligibles_of_run h hsound hrun
      split at hrest
      · rename_i hnone
        obtain rfl := Option.some.inj hrest
        obtain ⟨rfl, hselect⟩ := eq_nil_of_handled hn h hsound hrun hnone
        rw [hselect] at hview hsent
        refine ⟨S.sound_run hsound hrun, hleft, ?_, nofun, hsent, hnone⟩
        intro i _
        rw [hview i, if_neg List.not_mem_nil]
      · obtain ⟨rest, hrepeated', rfl⟩ := Option.map_eq_some_iff.mp hrest
        obtain ⟨hsound', hnone, hother, hitems, hsent', hhandled⟩ :=
          ih hleft (S.sound_run hsound hrun) hrepeated'
        simp only [List.mem_filter, decide_eq_true_eq, not_and] at hother hitems
        have hperm := perm_select (n := n) h hsound
        refine ⟨hsound', hnone, ?_, ?_, ?_, ?_⟩
        · intro i hi
          have hselected : i ∉ S.select n s := fun hselected =>
            hi ((h.2 i).mpr (S.eligible_of_mem hselected))
          rw [hother i fun hi' => absurd hi' hi, hview i, if_neg hselected]
        · intro i hi
          by_cases hselected : i ∈ S.select n s
          · refine ⟨k, List.mem_cons_self, ?_⟩
            rw [hother i fun _ hout => absurd hselected hout, hview i, if_pos hselected]
          · obtain ⟨k', hk', hk''⟩ := hitems i ⟨hi, hselected⟩
            refine ⟨k', List.mem_cons_of_mem k hk', ?_⟩
            rw [hk'', hview i, if_neg hselected]
        · refine ((hsent.append hsent').trans ?_).trans (hperm.flatMap_right _).symm
          rw [List.flatMap_append]
          refine List.Perm.append_left _ (List.Perm.of_eq (List.flatMap_congr fun i hi => ?_))
          simp only [List.mem_filter, decide_eq_true_eq] at hi
          rw [hview i, if_neg hi.2]
        · rw [hhandled]
          exact (length_left h hsound hrun).symm

/-- **The size of the batches does not matter.**  The repetition does what one sweep with room for
all eligible items does, but for the draws, and the sweep finds nothing afterwards. -/
theorem repeated_eq_one (hn : 1 ≤ n) (h : S.Eligibles s items) (hsound : S.sound s)
    (hrepeated : Batch.repeated (S.run n) ks s = some b) (hroom : items.length ≤ m)
    (hone : S.run m k s = some one) :
    (∀ i, S.view b.state i = S.view one.state i ∨ ∃ k' ∈ ks,
      S.view b.state i = S.effect k' (S.view s i) ∧
        S.view one.state i = S.effect k (S.view s i)) ∧
    b.sent.Perm one.sent ∧ b.handled = one.handled ∧
    ∀ n k, S.run n k b.state = some ⟨b.state, [], 0⟩ := by
  obtain ⟨-, hnone, hother, hitems, hsent, hhandled⟩ :=
    repeated_spec hn (eligibles_select h hsound hroom) hsound hrepeated
  have hview := S.view_run hsound hone
  refine ⟨fun i => ?_, hsent.trans (S.sent_run hsound hone).symm,
    hhandled.trans (S.handled_run hsound hone).symm, fun n k => S.idle ?_⟩
  · by_cases hi : i ∈ S.select m s
    · obtain ⟨k', hk', hrepeated⟩ := hitems i hi
      refine Or.inr ⟨k', hk', hrepeated, ?_⟩
      rw [hview i, if_pos hi]
    · left
      rw [hother i hi, hview i, if_neg hi]
  · refine List.eq_nil_iff_forall_not_mem.mpr fun i hi => ?_
    exact absurd ((hnone.2 i).mpr (S.eligible_of_mem hi)) List.not_mem_nil

end BatchSweep

/-! ## Sweeps one after the other -/

section Stages

variable {σ κ : Type*} {run : σ → κ → Option σ} {I : σ → Prop} {P : κ → σ → Prop}
  {ks : List κ} {s t : σ}

/-- What no stage of a sequence disturbs is left by all of them. -/
lemma kept_of_foldlM {Q : σ → Prop} (hinv : ∀ k s t, I s → run s k = some t → I t)
    (hkeeps : ∀ k ∈ ks, ∀ s t, I s → Q s → run s k = some t → Q t) (hI : I s) (hQ : Q s)
    (h : ks.foldlM run s = some t) : Q t := by
  induction ks generalizing s with
  | nil =>
      obtain rfl := Option.some.inj h
      exact hQ
  | cons k ks ih =>
      rw [List.foldlM_cons] at h
      obtain ⟨u, hu, ht⟩ := Option.bind_eq_some_iff.mp h
      apply ih (fun k' hk' => hkeeps k' (List.mem_cons_of_mem k hk')) (hinv k s u hI hu) _ ht
      exact hkeeps k List.mem_cons_self s u hI hQ hu

/-- Stages that each settle something, which no later one disturbs, settle all of it. -/
theorem settled_of_foldlM (hinv : ∀ k s t, I s → run s k = some t → I t)
    (hsettles : ∀ k s t, I s → run s k = some t → P k t)
    (hkeeps : ks.Pairwise fun k k' => ∀ s t, I s → P k s → run s k' = some t → P k t)
    (hI : I s) (h : ks.foldlM run s = some t) : I t ∧ ∀ k ∈ ks, P k t := by
  induction ks generalizing s with
  | nil =>
      obtain rfl := Option.some.inj h
      exact ⟨hI, fun k hk => absurd hk List.not_mem_nil⟩
  | cons k ks ih =>
      rw [List.foldlM_cons] at h
      obtain ⟨u, hu, ht⟩ := Option.bind_eq_some_iff.mp h
      obtain ⟨hlater, hrest⟩ := List.pairwise_cons.mp hkeeps
      have hIu : I u := hinv k s u hI hu
      obtain ⟨hIt, hsettled⟩ := ih hrest hIu ht
      refine ⟨hIt, List.forall_mem_cons.mpr ⟨?_, hsettled⟩⟩
      exact kept_of_foldlM hinv hlater hIu (hsettles k s u hI hu) ht

end Stages
