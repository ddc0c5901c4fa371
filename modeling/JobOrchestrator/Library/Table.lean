import Mathlib.Data.List.Sort
import Mathlib.Data.List.Nodup
import Mathlib.Logic.Function.Basic

/-!
# Tables with a primary key

A `Table key` is a list of rows no two of which share their key: the primary-key constraint
is a field, so a table that violates it cannot be built.  The operations are the ones a
relational store offers on one table.

* `get? t i` looks a row up by its key.
* `insert? t a` adds a row and fails when the key is taken.
* `update t p f` rewrites every row that satisfies `p`, as `UPDATE … SET f WHERE p` does.
* `select t p orderBy limit` is `SELECT … WHERE p ORDER BY orderBy LIMIT limit`.
* `rowsWhere t p` is the unordered selection, and `children t parent k` the rows whose
  foreign key `parent` is `k`.

Each operation comes with its effect on `get?` and on `children`; a consumer reasons with
these and does not unfold the row list.  `foldlM_pointwise` is the rule for a loop over
rows whose iterations each touch a different index of some view of the state.
-/

/-- A list of rows without two rows of one key. -/
structure Table {α ι : Type*} (key : α → ι) where
  rows : List α
  nodup : (rows.map key).Nodup

namespace Table

variable {α ι : Type*} {key : α → ι}

/-- The table without rows. -/
def empty : Table key := ⟨[], List.nodup_nil⟩

/-- Rows of one key are equal. -/
lemma eq_of_key_eq {t : Table key} {a b : α} (ha : a ∈ t.rows) (hb : b ∈ t.rows)
    (h : key a = key b) : a = b :=
  List.inj_on_of_nodup_map t.nodup ha hb h

/-! ## Lookup -/

section Lookup

variable [DecidableEq ι]

/-- The row with the given key. -/
def get? (t : Table key) (i : ι) : Option α := t.rows.find? fun a => decide (key a = i)

lemma get?_eq_some {t : Table key} {i : ι} {a : α} :
    t.get? i = some a ↔ a ∈ t.rows ∧ key a = i := by
  constructor
  · intro h
    exact ⟨List.mem_of_find?_eq_some h, by simpa using List.find?_some h⟩
  · rintro ⟨ha, rfl⟩
    have hsome : (t.get? (key a)).isSome := List.find?_isSome.mpr ⟨a, ha, by simp⟩
    obtain ⟨b, hb⟩ := Option.isSome_iff_exists.mp hsome
    have hkey : key b = key a := by simpa using List.find?_some hb
    rw [hb, eq_of_key_eq (List.mem_of_find?_eq_some hb) ha hkey]

lemma get?_eq_none {t : Table key} {i : ι} : t.get? i = none ↔ ∀ a ∈ t.rows, key a ≠ i := by
  simp [get?]

lemma key_of_get? {t : Table key} {i : ι} {a : α} (h : t.get? i = some a) : key a = i :=
  (get?_eq_some.mp h).2

lemma get?_of_mem {t : Table key} {a : α} (h : a ∈ t.rows) : t.get? (key a) = some a :=
  get?_eq_some.mpr ⟨h, rfl⟩

end Lookup

/-! ## Insertion -/

section Insert

variable [DecidableEq ι]

/-- Add a row; `none` when its key is taken. -/
def insert? (t : Table key) (a : α) : Option (Table key) :=
  if h : key a ∈ t.rows.map key then none
  else some ⟨t.rows ++ [a], by
    rw [List.map_append, List.map_singleton, ← List.concat_eq_append]
    exact t.nodup.concat h⟩

lemma rows_of_insert? {t t' : Table key} {a : α} (h : t.insert? a = some t') :
    t'.rows = t.rows ++ [a] := by
  unfold insert? at h
  split at h
  · cases h
  · obtain rfl := Option.some.inj h
    rfl

lemma get?_none_of_insert? {t t' : Table key} {a : α} (h : t.insert? a = some t') :
    t.get? (key a) = none := by
  unfold insert? at h
  split at h
  · cases h
  · rename_i hfree
    rw [get?_eq_none]
    intro b hb hkey
    exact hfree (List.mem_map.mpr ⟨b, hb, hkey⟩)

lemma get?_of_insert? {t t' : Table key} {a : α} (h : t.insert? a = some t') :
    t'.get? = Function.update t.get? (key a) (some a) := by
  have hnone := get?_none_of_insert? h
  funext i
  unfold get? at hnone ⊢
  rw [rows_of_insert? h, List.find?_append]
  by_cases hi : i = key a
  · subst hi
    simp [hnone]
  · rw [Function.update_of_ne hi]
    have : (List.find? (fun b => decide (key b = i)) [a]) = none := by
      simp [Ne.symm hi]
    rw [this, Option.or_none]

/-- An insertion succeeds exactly when the key is free. -/
lemma insert?_isSome {t : Table key} {a : α} :
    (t.insert? a).isSome ↔ t.get? (key a) = none := by
  rw [get?_eq_none]
  unfold insert?
  by_cases hfree : key a ∈ t.rows.map key
  · obtain ⟨b, hb, hkey⟩ := List.mem_map.mp hfree
    simp only [dif_pos hfree, Option.isSome_none, Bool.false_eq_true, false_iff]
    intro hnone
    exact hnone b hb hkey
  · simp only [dif_neg hfree, Option.isSome_some, true_iff]
    intro b hb hkey
    exact hfree (hkey ▸ List.mem_map_of_mem hb)

end Insert

/-! ## Counting -/

/-- Rows of one table can be counted against the rows of another that have their keys. -/
lemma countP_le {t t' : Table key} {p q : α → Bool}
    (h : ∀ a ∈ t.rows, p a → ∃ b ∈ t'.rows, key b = key a ∧ q b) :
    t.rows.countP p ≤ t'.rows.countP q := by
  have hnodup : ((t.rows.filter p).map key).Nodup :=
    (List.filter_sublist.map key).nodup t.nodup
  have hsub : (t.rows.filter p).map key ⊆ (t'.rows.filter q).map key := by
    intro i hi
    obtain ⟨a, ha, rfl⟩ := List.mem_map.mp hi
    obtain ⟨hmem, hp⟩ := List.mem_filter.mp ha
    obtain ⟨b, hb, hkey, hq⟩ := h a hmem hp
    exact List.mem_map.mpr ⟨b, List.mem_filter.mpr ⟨hb, hq⟩, hkey⟩
  have hle := List.Nodup.length_le_of_subset hnodup hsub
  simpa only [List.length_map, List.countP_eq_length_filter] using hle

/-! ## Update -/

/-- Rewrite the rows that satisfy `p`; the rewriting keeps the key. -/
def update (t : Table key) (p : α → Bool) (f : α → α) (hf : ∀ a, key (f a) = key a) :
    Table key where
  rows := t.rows.map fun a => if p a then f a else a
  nodup := by
    have : (t.rows.map fun a => if p a then f a else a).map key = t.rows.map key := by
      rw [List.map_map]
      refine List.map_congr_left fun a _ => ?_
      by_cases h : p a <;> simp [h, hf]
    rw [this]
    exact t.nodup

lemma mem_update {t : Table key} {a : α} (h : a ∈ t.rows) (p : α → Bool) (f : α → α)
    (hf : ∀ a, key (f a) = key a) : (if p a then f a else a) ∈ (t.update p f hf).rows :=
  List.mem_map_of_mem h

lemma get?_update [DecidableEq ι] (t : Table key) (p : α → Bool) (f : α → α)
    (hf : ∀ a, key (f a) = key a) (i : ι) :
    (t.update p f hf).get? i = (t.get? i).map fun a => if p a then f a else a := by
  have hkey : ∀ a, key (if p a then f a else a) = key a := by
    intro a
    by_cases h : p a <;> simp [h, hf]
  simp only [get?, update, List.find?_map, Function.comp_def, hkey]

/-- Rewrite the row of key `i` if it satisfies `p`. -/
def updateAt [DecidableEq ι] (t : Table key) (i : ι) (p : α → Bool) (f : α → α)
    (hf : ∀ a, key (f a) = key a) : Table key :=
  t.update (fun a => decide (key a = i) && p a) f hf

lemma get?_updateAt [DecidableEq ι] (t : Table key) (i : ι) (p : α → Bool) (f : α → α)
    (hf : ∀ a, key (f a) = key a) :
    (t.updateAt i p f hf).get? =
      Function.update t.get? i ((t.get? i).map fun a => if p a then f a else a) := by
  funext j
  rw [updateAt, get?_update]
  by_cases hj : j = i
  · subst hj
    rw [Function.update_self]
    refine Option.map_congr fun a ha => ?_
    simp [key_of_get? (Option.mem_def.mp ha)]
  · rw [Function.update_of_ne hj]
    cases h : t.get? j with
    | none => rfl
    | some a =>
        have hne : key a ≠ i := key_of_get? h ▸ hj
        simp [hne]

/-! ## Rows of one parent -/

/-- The rows that satisfy `q`, in table order. -/
def rowsWhere (t : Table key) (q : α → Bool) : List α := t.rows.filter q

lemma mem_rowsWhere {t : Table key} {q : α → Bool} {a : α} :
    a ∈ t.rowsWhere q ↔ a ∈ t.rows ∧ q a := List.mem_filter

lemma rowsWhere_of_insert? [DecidableEq ι] {t t' : Table key} {a : α} (q : α → Bool)
    (h : t.insert? a = some t') :
    t'.rowsWhere q = t.rowsWhere q ++ if q a then [a] else [] := by
  rw [rowsWhere, rows_of_insert? h, List.filter_append]
  by_cases hq : q a <;> simp [rowsWhere, hq]

/-- A rewriting that keeps `q` rewrites the rows selected by `q` in place. -/
lemma rowsWhere_update (t : Table key) (p q : α → Bool) (f : α → α)
    (hf : ∀ a, key (f a) = key a) (hq : ∀ a, q (f a) = q a) :
    (t.update p f hf).rowsWhere q = (t.rowsWhere q).map fun a => if p a then f a else a := by
  have hq' : ∀ a, q (if p a then f a else a) = q a := by
    intro a
    by_cases h : p a <;> simp [h, hq]
  simp only [rowsWhere, update, List.filter_map, Function.comp_def, hq']

/-- The rows of a child table that belong to one parent. -/
def children {κ : Type*} [DecidableEq κ] (t : Table key) (parent : α → κ) (k : κ) : List α :=
  t.rowsWhere fun a => parent a = k

section Children

variable {κ : Type*} [DecidableEq κ] {t t' : Table key} {parent : α → κ}

lemma mem_children {k : κ} {a : α} :
    a ∈ t.children parent k ↔ a ∈ t.rows ∧ parent a = k := by
  simp [children, mem_rowsWhere]

/-- A new row becomes the last child of its parent. -/
lemma children_of_insert? [DecidableEq ι] (parent : α → κ) {a : α} (h : t.insert? a = some t') :
    t'.children parent = Function.update (t.children parent) (parent a)
      (t.children parent (parent a) ++ [a]) := by
  refine Function.eq_update_iff.mpr ⟨?_, fun k hk => ?_⟩
  · simp [children, rowsWhere_of_insert? _ h]
  · simp [children, rowsWhere_of_insert? _ h, Ne.symm hk]

/-- Rewriting one row, without moving it to another parent, changes the children of its
parent only. -/
lemma children_updateAt [DecidableEq ι] (parent : α → κ) {a : α} (ha : a ∈ t.rows)
    (f : α → α) (hf : ∀ a, key (f a) = key a)
    (hparent : ∀ a, parent (f a) = parent a) :
    (t.updateAt (key a) (fun _ => true) f hf).children parent =
      Function.update (t.children parent) (parent a)
        ((t.children parent (parent a)).map fun b => if key b = key a then f b else b) := by
  have hmap : ∀ k, (t.updateAt (key a) (fun _ => true) f hf).children parent k =
      (t.children parent k).map fun b => if key b = key a then f b else b := by
    intro k
    refine (rowsWhere_update t _ _ f hf fun b => by rw [hparent]).trans ?_
    simp [children]
  refine Function.eq_update_iff.mpr ⟨hmap _, fun k hk => (hmap k).trans ?_⟩
  refine (List.map_congr_left fun b hb => ?_).trans (List.map_id _)
  obtain ⟨hmem, hb⟩ := mem_children.mp hb
  have hne : key b ≠ key a := fun hkey => hk (by rw [← hb, eq_of_key_eq hmem ha hkey])
  simp [hne]

end Children

/-! ## Ordered selection -/

/-- `SELECT … WHERE p ORDER BY orderBy LIMIT limit`; rows with equal sort keys come in table
order. -/
def select {κ : Type*} [LinearOrder κ] (t : Table key) (p : α → Bool) (orderBy : α → κ)
    (limit : ℕ) : List α :=
  ((t.rows.filter p).insertionSort fun a b => orderBy a ≤ orderBy b).take limit

section Select

variable {κ : Type*} [LinearOrder κ] {t : Table key} {p : α → Bool} {orderBy : α → κ}
  {limit : ℕ}

lemma mem_of_mem_select {a : α} (h : a ∈ t.select p orderBy limit) : a ∈ t.rows ∧ p a := by
  have h := List.mem_of_mem_take h
  rw [List.mem_insertionSort] at h
  exact List.mem_filter.mp h

/-- With room for all of them, every matching row is selected. -/
lemma mem_select_of_le {a : α} (ha : a ∈ t.rows) (hp : p a)
    (hlimit : (t.rows.filter p).length ≤ limit) : a ∈ t.select p orderBy limit := by
  rw [select, List.take_of_length_le (by rwa [List.length_insertionSort]),
    List.mem_insertionSort]
  exact List.mem_filter.mpr ⟨ha, hp⟩

/-- A matching row is left out only when the limit is reached. -/
lemma length_select_of_notMem {a : α} (ha : a ∈ t.rows) (hp : p a)
    (h : a ∉ t.select p orderBy limit) : (t.select p orderBy limit).length = limit := by
  have hlimit : limit ≤ (t.rows.filter p).length := by
    by_contra hroom
    exact h (mem_select_of_le ha hp (not_le.mp hroom).le)
  rw [select, List.length_take, List.length_insertionSort, min_eq_left hlimit]

/-- Nothing is selected when nothing matches, or nothing may be. -/
lemma select_eq_nil : t.select p orderBy limit = [] ↔ limit = 0 ∨ ∀ a ∈ t.rows, ¬ p a := by
  have hsorted : (t.rows.filter p).insertionSort (fun a b => orderBy a ≤ orderBy b) = [] ↔
      t.rows.filter p = [] := by
    rw [← List.length_eq_zero_iff, List.length_insertionSort, List.length_eq_zero_iff]
  rw [select, List.take_eq_nil_iff, hsorted, List.filter_eq_nil_iff]

/-- When one row matches, and no other, it is what is selected. -/
lemma select_eq_singleton {a : α} (ha : a ∈ t.rows) (hp : p a)
    (honly : ∀ b ∈ t.rows, p b → b = a) (hlimit : 1 ≤ limit) :
    t.select p orderBy limit = [a] := by
  have hfilter : t.rows.filter p = [a] := by
    have hmem : a ∈ t.rows.filter p := List.mem_filter.mpr ⟨ha, hp⟩
    have hnodup : (t.rows.filter p).Nodup := (List.Nodup.of_map key t.nodup).filter p
    have hall : ∀ b ∈ t.rows.filter p, b = a := fun b hb =>
      honly b (List.mem_filter.mp hb).1 (List.mem_filter.mp hb).2
    have hlength : (t.rows.filter p).length ≤ 1 := by
      rw [List.eq_replicate_of_mem hall] at hnodup ⊢
      rw [List.length_replicate]
      exact List.nodup_replicate.mp hnodup
    obtain ⟨b, hb⟩ := List.length_eq_one_iff.mp
      (le_antisymm hlength (List.length_pos_of_mem hmem))
    rw [hb, List.mem_singleton] at hmem
    rw [hb, hmem]
  rw [select, hfilter]
  exact List.take_of_length_le hlimit

lemma nodup_select : ((t.select p orderBy limit).map key).Nodup := by
  have hperm := List.perm_insertionSort (fun a b => orderBy a ≤ orderBy b) (t.rows.filter p)
  have hsub : ((t.select p orderBy limit).map key).Sublist
      (((t.rows.filter p).insertionSort fun a b => orderBy a ≤ orderBy b).map key) :=
    (List.take_sublist _ _).map _
  refine hsub.nodup ((hperm.map key).nodup_iff.mpr ?_)
  exact (List.filter_sublist.map key).nodup t.nodup

lemma get?_of_mem_select [DecidableEq ι] {a : α} (h : a ∈ t.select p orderBy limit) :
    t.get? (key a) = some a :=
  get?_of_mem (mem_of_mem_select h).1

end Select

/-! ## Loops over rows -/

/-- A loop whose iterations fail on certain items only, whatever the state. -/
lemma foldlM_isSome_iff {σ κ : Type*} {body : σ → κ → Option σ} {ok : κ → Prop}
    (hbody : ∀ s x, (body s x).isSome ↔ ok x) {xs : List κ} {s : σ} :
    (xs.foldlM body s).isSome ↔ ∀ x ∈ xs, ok x := by
  induction xs generalizing s with
  | nil => simp
  | cons x xs ih =>
      rw [List.foldlM_cons, List.forall_mem_cons, ← hbody s x]
      cases hx : body s x with
      | none => simp
      | some t => simpa using ih

/-- A loop whose iterations succeed and keep an invariant. -/
lemma exists_foldlM {σ κ : Type*} {body : σ → κ → Option σ} {I : σ → Prop} {xs : List κ}
    (hbody : ∀ s, I s → ∀ x ∈ xs, ∃ s', body s x = some s' ∧ I s') {s : σ} (hs : I s) :
    ∃ s', xs.foldlM body s = some s' ∧ I s' := by
  induction xs generalizing s with
  | nil => exact ⟨s, rfl, hs⟩
  | cons x xs ih =>
      obtain ⟨t, ht, hkept⟩ := hbody s hs x List.mem_cons_self
      obtain ⟨s', hs', hI⟩ := ih (fun s hs y hy => hbody s hs y (List.mem_cons_of_mem x hy)) hkept
      exact ⟨s', by rw [List.foldlM_cons, ht]; exact hs', hI⟩

/-- A loop each of whose iterations changes a view of the state at the index of its item
only, over items with distinct indices: the view changes at the indices of the items, there
by what one iteration does to it, and nowhere else.  `P` is what an iteration needs to know
about its item, established before the loop and kept by every iteration. -/
theorem foldlM_pointwise {σ κ ι ρ : Type*} [DecidableEq ι] (view : σ → ι → ρ)
    (P : κ → σ → Prop) {idx : κ → ι} {body : σ → κ → Option σ} {f : κ → ρ → ρ}
    (hbody : ∀ s x s', body s x = some s' → P x s →
      view s' = Function.update (view s) (idx x) (f x (view s (idx x))))
    (hkeep : ∀ s x s' y, body s x = some s' → P x s → P y s → P y s')
    {xs : List κ} (hnodup : (xs.map idx).Nodup) {s s' : σ} (hP : ∀ x ∈ xs, P x s)
    (h : xs.foldlM body s = some s') :
    (∀ i, i ∉ xs.map idx → view s' i = view s i) ∧
      ∀ x ∈ xs, view s' (idx x) = f x (view s (idx x)) := by
  induction xs generalizing s with
  | nil =>
      obtain rfl : s = s' := by simpa using h
      exact ⟨fun _ _ => rfl, by simp⟩
  | cons x xs ih =>
      rw [List.foldlM_cons] at h
      obtain ⟨t, ht, hrest⟩ := Option.bind_eq_some_iff.mp h
      rw [List.map_cons, List.nodup_cons] at hnodup
      have hPx : P x s := hP x List.mem_cons_self
      have hPt : ∀ y ∈ xs, P y t := fun y hy =>
        hkeep s x t y ht hPx (hP y (List.mem_cons_of_mem _ hy))
      have hview := hbody s x t ht hPx
      obtain ⟨hother, hitem⟩ := ih hnodup.2 hPt hrest
      refine ⟨fun i hi => ?_, fun y hy => ?_⟩
      · rw [List.map_cons, List.mem_cons, not_or] at hi
        rw [hother i hi.2, hview, Function.update_of_ne hi.1]
      · rcases List.mem_cons.mp hy with rfl | hy
        · rw [hother _ hnodup.1, hview, Function.update_self]
        · have hne : idx y ≠ idx x := by
            intro heq
            exact hnodup.1 (heq ▸ List.mem_map_of_mem hy)
          rw [hitem y hy, hview, Function.update_of_ne hne]

/-- What such a loop accumulates: each iteration adds what it makes of its item and of the view
at its index, as that was before the loop. -/
theorem foldlM_accumulate {σ κ ι ρ γ : Type*} [DecidableEq ι] (view : σ → ι → ρ) (acc : σ → γ)
    (add : γ → κ → ρ → γ) (P : κ → σ → Prop) {idx : κ → ι} {body : σ → κ → Option σ}
    {f : κ → ρ → ρ}
    (hbody : ∀ s x s', body s x = some s' → P x s →
      view s' = Function.update (view s) (idx x) (f x (view s (idx x))))
    (hacc : ∀ s x s', body s x = some s' → P x s → acc s' = add (acc s) x (view s (idx x)))
    (hkeep : ∀ s x s' y, body s x = some s' → P x s → P y s → P y s')
    {xs : List κ} (hnodup : (xs.map idx).Nodup) {s s' : σ} (hP : ∀ x ∈ xs, P x s)
    (h : xs.foldlM body s = some s') :
    acc s' = xs.foldl (fun c x => add c x (view s (idx x))) (acc s) := by
  induction xs generalizing s with
  | nil =>
      obtain rfl : s = s' := by simpa using h
      rfl
  | cons x xs ih =>
      rw [List.foldlM_cons] at h
      obtain ⟨t, ht, hrest⟩ := Option.bind_eq_some_iff.mp h
      rw [List.map_cons, List.nodup_cons] at hnodup
      have hPx : P x s := hP x List.mem_cons_self
      have hPt : ∀ y ∈ xs, P y t := fun y hy =>
        hkeep s x t y ht hPx (hP y (List.mem_cons_of_mem _ hy))
      have hview := hbody s x t ht hPx
      rw [ih hnodup.2 hPt hrest, hacc s x t ht hPx, List.foldl_cons]
      refine List.foldl_ext _ _ _ fun c y hy => ?_
      have hne : idx y ≠ idx x := by
        intro heq
        exact hnodup.1 (heq ▸ List.mem_map_of_mem hy)
      rw [hview, Function.update_of_ne hne]

/-- A loop that collects in a list what its iterations make of their items. -/
theorem foldlM_collect {σ κ ι ρ γ : Type*} [DecidableEq ι] (view : σ → ι → ρ) (out : σ → List γ)
    (g : κ → ρ → Option γ) (P : κ → σ → Prop) {idx : κ → ι} {body : σ → κ → Option σ}
    {f : κ → ρ → ρ}
    (hbody : ∀ s x s', body s x = some s' → P x s →
      view s' = Function.update (view s) (idx x) (f x (view s (idx x))))
    (hout : ∀ s x s', body s x = some s' → P x s →
      out s' = out s ++ (g x (view s (idx x))).toList)
    (hkeep : ∀ s x s' y, body s x = some s' → P x s → P y s → P y s')
    {xs : List κ} (hnodup : (xs.map idx).Nodup) {s s' : σ} (hP : ∀ x ∈ xs, P x s)
    (h : xs.foldlM body s = some s') :
    out s' = out s ++ xs.filterMap fun x => g x (view s (idx x)) := by
  rw [foldlM_accumulate view out (fun c x r => c ++ (g x r).toList) P hbody hout hkeep hnodup hP h,
    List.filterMap_eq_flatMap_toList]
  exact List.foldl_append_eq_append ..

/-- What no iteration changes, the loop does not change. -/
lemma foldlM_constant {σ κ γ : Type*} (acc : σ → γ) {body : σ → κ → Option σ}
    (hbody : ∀ s x s', body s x = some s' → acc s' = acc s) {xs : List κ} {s s' : σ}
    (h : xs.foldlM body s = some s') : acc s' = acc s := by
  induction xs generalizing s with
  | nil =>
      obtain rfl : s = s' := by simpa using h
      rfl
  | cons x xs ih =>
      rw [List.foldlM_cons] at h
      obtain ⟨t, ht, hrest⟩ := Option.bind_eq_some_iff.mp h
      exact (ih hrest).trans (hbody s x t ht)

end Table
