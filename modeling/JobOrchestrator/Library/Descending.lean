import Mathlib.Data.List.Sort
import Mathlib.Data.List.Nodup
import Mathlib.Data.Prod.Lex

/-!
# Sorting by a key, largest first

`descending key l` is `l` under `ORDER BY key DESC`.  When no two items have one key, the order
is determined by the key alone, and it is the reverse of the order of `l` exactly when `l` lists
its items by increasing key.
-/

section Descending

variable {α κ : Type*} [LinearOrder κ] {key : α → κ} {l : List α}

/-- The items by decreasing key. -/
def descending (key : α → κ) (l : List α) : List α :=
  l.insertionSort fun a b => key b ≤ key a

lemma descending_perm : (descending key l).Perm l :=
  List.perm_insertionSort (fun a b => key b ≤ key a) l

lemma mem_descending {a : α} : a ∈ descending key l ↔ a ∈ l :=
  List.mem_insertionSort fun a b => key b ≤ key a

lemma pairwise_descending : (descending key l).Pairwise fun a b => key b ≤ key a := by
  have : Std.Total fun a b : α => key b ≤ key a := ⟨fun a b => le_total (key b) (key a)⟩
  have : IsTrans α fun a b => key b ≤ key a := ⟨fun _ _ _ hab hbc => hbc.trans hab⟩
  exact List.pairwise_insertionSort _ l

/-- Items of different keys are listed strictly. -/
lemma pairwise_descending_lt (hkeys : (l.map key).Nodup) :
    (descending key l).Pairwise fun a b => key b < key a := by
  have hne : (descending key l).Pairwise fun a b => key a ≠ key b :=
    List.pairwise_map.mp ((descending_perm.map key).nodup_iff.mpr hkeys)
  exact (pairwise_descending.and hne).imp fun hab => lt_of_le_of_ne hab.1 hab.2.symm

/-- The order is determined by the keys. -/
lemma descending_eq {l' : List α} (hkeys : (l.map key).Nodup) (hperm : l'.Perm l)
    (hsorted : l'.Pairwise fun a b => key b ≤ key a) : descending key l = l' := by
  refine List.Perm.eq_of_pairwise (fun a b ha hb hab hba => ?_) pairwise_descending hsorted
    (descending_perm.trans hperm.symm)
  exact List.inj_on_of_nodup_map hkeys (mem_descending.mp ha) (hperm.mem_iff.mp hb)
    (le_antisymm hba hab)

/-- The order in which the items came does not matter. -/
lemma descending_congr {l' : List α} (hkeys : (l.map key).Nodup) (hperm : l.Perm l') :
    descending key l = descending key l' :=
  descending_eq hkeys (descending_perm.trans hperm.symm) pairwise_descending

/-- Largest first is last first exactly for a list by increasing key. -/
theorem descending_eq_reverse_iff (hkeys : (l.map key).Nodup) :
    descending key l = l.reverse ↔ l.Pairwise fun a b => key a < key b := by
  constructor
  · intro heq
    have hsorted : l.reverse.Pairwise fun a b => key b ≤ key a := heq ▸ pairwise_descending
    have hne : l.Pairwise fun a b => key a ≠ key b := List.pairwise_map.mp hkeys
    exact ((List.pairwise_reverse.mp hsorted).and hne).imp fun hab => lt_of_le_of_ne hab.1 hab.2
  · intro hsorted
    refine descending_eq hkeys l.reverse_perm (List.pairwise_reverse.mpr ?_)
    exact hsorted.imp le_of_lt

end Descending
