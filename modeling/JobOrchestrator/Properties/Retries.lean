import JobOrchestrator.Properties.BackoffBounds
import JobOrchestrator.Workers.Deliverer
import JobOrchestrator.Library.TransitionSystem

/-!
# The retries of a notification

A notification is delivered until a delivery succeeds or the attempts are exhausted.  The wait
before a retry is computed from the attempt count, and beyond the attempt 1024 there is none, so
the rule holds when every notification is settled by the attempt 1025 at the latest.
-/

namespace JobOrchestrator

open PyFloat NotificationService NotificationOutboxRepository TransitionSystem

/-! ## The wait of a retry -/

/-- The retry settings for which every wait is a `timedelta`. -/
structure Settings.WaitsFit (settings : Settings) : Prop where
  base : zero.le settings.retryBaseSeconds
  max : zero.le settings.retryMaxSeconds
  ratio : zero.le settings.retryJitterRatio
  one : settings.retryJitterRatio.le one
  finite : settings.retryMaxSeconds.Finite
  width : ((settings.retryMaxSeconds.mul settings.retryJitterRatio).add
    (settings.retryMaxSeconds.mul settings.retryJitterRatio)).Finite
  greatest : (greatestWait settings.retryMaxSeconds settings.retryJitterRatio).Finite
  seconds : (greatestWait settings.retryMaxSeconds settings.retryJitterRatio).magnitude <
    999999999 * 86400

section Wait

variable {x : PyFloat} {settings : Settings} {n : ℕ}

/-- The microseconds of the rest of a second. -/
lemma microseconds_le {q : ℚ} (hq : 0 ≤ q) (hone : q ≤ 1) :
    roundHalfEven ((PyFloat.ofRat false 1000000).mul (.ofRat false q)).magnitude ≤ 1000000 := by
  have hmillion : (PyFloat.ofRat false 1000000).Nonneg := nonneg_ofRat nofun
  have hmillion' : (PyFloat.ofRat false 1000000).Finite := by decide +kernel
  have hmagnitude : (PyFloat.ofRat false 1000000).magnitude = (1000000 : ℕ) := by decide +kernel
  have hrest : (PyFloat.ofRat false q).Nonneg := nonneg_ofRat nofun
  have hrest' : (PyFloat.ofRat false q).number ≤ PyFloat.one.number := number_ofRat_mono hq hone
  have hle := magnitude_le_iff.mpr (nonneg_mul_of_le_one hmillion hmillion' hrest hrest').2
  rw [hmagnitude] at hle
  calc roundHalfEven ((PyFloat.ofRat false 1000000).mul (.ofRat false q)).magnitude
      ≤ Rounding.nearest ((1000000 : ℕ) : ℚ) := Rounding.nearest_mono (magnitude_nonneg _) hle
    _ = 1000000 := Rounding.nearest_natCast _

lemma timedelta_of_lt (hx : x.Nonneg) (hx' : x.Finite) (h : x.magnitude < 86399999913600) :
    ∃ delta, timedelta x = .ok delta := by
  have hfloor : x.magnitude.floor < 86399999913600 := Int.floor_lt.mpr (by exact_mod_cast h)
  have hnonneg : 0 ≤ x.magnitude.floor := Int.floor_nonneg.mpr x.magnitude_nonneg
  have hbelow : (x.magnitude.floor : ℚ) ≤ x.magnitude := Int.floor_le _
  have habove : x.magnitude < x.magnitude.floor + 1 := Int.lt_floor_add_one _
  have hrest : roundHalfEven ((PyFloat.ofRat false 1000000).mul
      (.ofRat false (x.magnitude - x.magnitude.floor))).magnitude ≤ 1000000 :=
    microseconds_le (by linarith) (by linarith)
  rw [timedelta, hx.1, hx'.isInf, if_neg Bool.false_ne_true, if_neg Bool.false_ne_true]
  dsimp only
  generalize roundHalfEven _ = micro at hrest ⊢
  generalize x.magnitude.floor = whole at hfloor hnonneg ⊢
  have hrange : ∀ delta : ℤ, delta = seconds whole + micro ∨ delta = -(seconds whole + micro) →
      seconds (-999999999 * 86400) ≤ delta ∧ delta < seconds (1000000000 * 86400) := by
    intro delta hdelta
    unfold seconds at hdelta
    show (-999999999 * 86400 * 1000000 : ℤ) ≤ delta ∧ delta < (1000000000 * 86400 * 1000000 : ℤ)
    omega
  rw [if_pos]
  · exact ⟨_, rfl⟩
  · apply hrange
    split
    · exact Or.inr rfl
    · exact Or.inl rfl

/-- Up to the attempt 1024 every draw gives a wait. -/
lemma retryWait_of_le (hfit : settings.WaitsFit) (h : n ≤ 1024) (draw : Fin (2 ^ 53)) :
    ∃ wait, retryWait n settings draw = .ok wait := by
  obtain ⟨c, v, -, hv, hranged⟩ := (backoff_bounded_iff_le hfit.base hfit.max hfit.ratio hfit.one
    hfit.finite hfit.width n).mpr h draw
  have hv' : v.Nonneg := zero_le_iff.mp hranged.nonneg
  have hbelow := hranged.below.resolve_left (by rw [hfit.finite.isInf]; exact Bool.false_ne_true)
  have hone : settings.retryJitterRatio.number ≤ PyFloat.one.number :=
    (le_iff_number (zero_le_iff.mp hfit.ratio) nonneg_one).mp hfit.one
  have hgreatest := (nonneg_greatestWait (zero_le_iff.mp hfit.max) hfit.finite
    (zero_le_iff.mp hfit.ratio) hone).1
  have hnumber := (le_iff_number hv' hgreatest).mp hbelow
  obtain ⟨wait, hwait⟩ := timedelta_of_lt hv' (hnumber.trans_lt hfit.greatest)
    ((magnitude_le_iff.mpr hnumber).trans_lt (hfit.seconds.trans_eq (by norm_num)))
  refine ⟨wait, ?_⟩
  rw [retryWait, hv]
  exact hwait

/-- Beyond it no draw does. -/
lemma retryWait_of_gt (h : 1024 < n) (draw : Fin (2 ^ 53)) :
    retryWait n settings draw = .error .overflowError := by
  rw [retryWait, computeBackoffSeconds_eq, cappedSeconds_of_gt h]
  rfl

end Wait

namespace NotificationService

/-! ## The fate of a notification -/

/-- Among the outcomes of a notification the first success is the one with this number. -/
def FirstSuccess (outcomes : ℕ → Option String) (i : ℕ) : Prop :=
  1 ≤ i ∧ outcomes (i - 1) = none ∧ ∀ j < i - 1, (outcomes j).isSome

/-- A notification ended as its outcomes want it: sent by the first success among the first `m`
deliveries, failed after `m` deliveries if there is none. -/
def SettledBy (m : ℕ) (outcomes : ℕ → Option String) (n : NotificationOutbox) : Prop :=
  (∀ i ≤ m, FirstSuccess outcomes i → n.status = .sent ∧ n.attempts = i) ∧
    ((∀ i ≤ m, ¬ FirstSuccess outcomes i) → n.status = .failed ∧ n.attempts = m)

/-- No retry is left after the attempt 1025. -/
def SettledInTime (m : ℕ) (outcomes : ℕ → Option String) : Prop :=
  m ≤ 1025 ∨ ∃ j < 1025, outcomes j = none

/-- What the row of a notification says about the deliveries that were made of it. -/
structure Lawful (m : ℕ) (outcomes : ℕ → Option String) (n : NotificationOutbox) : Prop where
  pending : n.status = .pending → n.attempts < m ∧ ∀ j < n.attempts, (outcomes j).isSome
  sent : n.status = .sent → n.attempts ≤ m ∧ FirstSuccess outcomes n.attempts
  failed : n.status = .failed → n.attempts = m ∧ ∀ j < m, (outcomes j).isSome

section Fate

variable {settings : Settings} {outcomes : Outcomes} {w : Deliverer} {call : Call} {m i j : ℕ}
  {n : NotificationOutbox} {o : ℕ → Option String}

lemma FirstSuccess.unique (h : FirstSuccess o i) (h' : FirstSuccess o j) : i = j := by
  obtain ⟨hi, hsuccess, hbefore⟩ := h
  obtain ⟨hj, hsuccess', hbefore'⟩ := h'
  rcases lt_trichotomy i j with hlt | rfl | hlt
  · have hfailed := hbefore' (i - 1) (by omega)
    rw [hsuccess] at hfailed
    cases hfailed
  · rfl
  · have hfailed := hbefore (j - 1) (by omega)
    rw [hsuccess'] at hfailed
    cases hfailed

lemma not_firstSuccess (h : ∀ j < m, (o j).isSome) (hi : i ≤ m) : ¬ FirstSuccess o i := by
  rintro ⟨hpos, hsuccess, -⟩
  have hfailed := h (i - 1) (by omega)
  rw [hsuccess] at hfailed
  cases hfailed

lemma Lawful.of_pending (hstatus : n.status = .pending) (hless : n.attempts < m)
    (hfailed : ∀ j < n.attempts, (o j).isSome) : Lawful m o n where
  pending _ := ⟨hless, hfailed⟩
  sent hsent := by cases hstatus.symm.trans hsent
  failed hfailed := by cases hstatus.symm.trans hfailed

lemma Lawful.of_sent (hstatus : n.status = .sent) (hle : n.attempts ≤ m)
    (hfirst : FirstSuccess o n.attempts) : Lawful m o n where
  pending hpending := by cases hstatus.symm.trans hpending
  sent _ := ⟨hle, hfirst⟩
  failed hfailed := by cases hstatus.symm.trans hfailed

lemma Lawful.of_failed (hstatus : n.status = .failed) (hattempts : n.attempts = m)
    (hfailed : ∀ j < m, (o j).isSome) : Lawful m o n where
  pending hpending := by cases hstatus.symm.trans hpending
  sent hsent := by cases hstatus.symm.trans hsent
  failed _ := ⟨hattempts, hfailed⟩

lemma settledBy_of_lawful (h : Lawful m o n) (hended : n.status ≠ .pending) : SettledBy m o n := by
  cases hstatus : n.status with
  | pending => exact absurd hstatus hended
  | sent =>
      obtain ⟨hle, hfirst⟩ := h.sent hstatus
      refine ⟨fun i _ hi => ⟨hstatus, hfirst.unique hi⟩, fun hnone => ?_⟩
      exact absurd hfirst (hnone _ hle)
  | failed =>
      obtain ⟨hattempts, hfailed⟩ := h.failed hstatus
      refine ⟨fun i hi hfirst => absurd hfirst (not_firstSuccess hfailed hi), fun _ => ?_⟩
      exact ⟨hstatus, hattempts⟩

lemma outcome_of_success (hsuccess : outcomes n.id (w.count n.id) = none) :
    (w.inputs settings outcomes call).outcome n.id = .delivered := by
  simp only [Deliverer.inputs, hsuccess]

/-- A delivery that fails with an `httpx.HTTPError` and has a wait computed after it. -/
lemma outcome_of_failure {message : String} (hrow : w.row n.id = some n)
    (hfailure : outcomes n.id (w.count n.id) = some message) :
    (w.inputs settings outcomes call).outcome n.id =
      match retryWait (n.attempts + 1) settings (call.draw n.id) with
      | .ok _ => .httpError message
      | .error _ =>
          if settings.notificationMaxAttempts ≤ n.attempts + 1 then .httpError message
          else .raised := by
  simp only [Deliverer.inputs, hfailure, hrow]
  rfl

/-- A delivery of a pending notification does not raise, and its row stays lawful. -/
lemma lawful_written (hfit : settings.WaitsFit)
    (htime : SettledInTime settings.notificationMaxAttempts (outcomes n.id))
    (hrow : w.row n.id = some n) (hcount : n.attempts = w.count n.id)
    (hpending : n.status = .pending) (h : Lawful settings.notificationMaxAttempts (outcomes n.id) n)
    (call : Call) :
    (w.inputs settings outcomes call).outcome n.id ≠ .raised ∧
      (written settings (w.inputs settings outcomes call) n n).attempts = n.attempts + 1 ∧
      Lawful settings.notificationMaxAttempts (outcomes n.id)
        (written settings (w.inputs settings outcomes call) n n) := by
  obtain ⟨hless, hfailed⟩ := h.pending hpending
  cases hdelivery : outcomes n.id (w.count n.id) with
  | none =>
      have houtcome : (w.inputs settings outcomes call).outcome n.id = .delivered :=
        outcome_of_success hdelivery
      rw [← hcount] at hdelivery
      rw [written, houtcome]
      refine ⟨?_, rfl, ?_⟩
      · intro heq
        cases heq
      · exact .of_sent rfl hless ⟨Nat.le_add_left 1 _, hdelivery, hfailed⟩
  | some message =>
      have hfailed' : ∀ j < n.attempts + 1, (outcomes n.id j).isSome := by
        intro j hj
        rcases Nat.lt_succ_iff_lt_or_eq.mp hj with hj | rfl
        · exact hfailed j hj
        · rw [hcount, hdelivery]
          rfl
      have herror : (w.inputs settings outcomes call).outcome n.id = .httpError message := by
        rw [outcome_of_failure hrow hdelivery]
        cases hwait : retryWait (n.attempts + 1) settings (call.draw n.id) with
        | ok wait => rfl
        | error e =>
            refine if_pos (not_lt.mp fun hretry => ?_)
            -- a retry is in time, so there is a wait
            have hle : n.attempts + 1 ≤ 1024 := by
              rcases htime with hm | ⟨j, hj, hsuccess⟩
              · omega
              · by_contra hlate
                have hfailure := hfailed' j (by omega)
                rw [hsuccess] at hfailure
                cases hfailure
            obtain ⟨wait, hwait'⟩ := retryWait_of_le hfit hle (call.draw n.id)
            cases hwait.symm.trans hwait'
      rw [written, herror]
      dsimp only
      refine ⟨?_, ?_⟩
      · intro heq
        cases heq
      · by_cases hexhausted : settings.notificationMaxAttempts ≤ n.attempts + 1
        · rw [if_pos hexhausted]
          have hlast : n.attempts + 1 = settings.notificationMaxAttempts := by omega
          exact ⟨rfl, .of_failed rfl hlast (hlast ▸ hfailed')⟩
        · rw [if_neg hexhausted]
          exact ⟨rfl, .of_pending hpending (not_le.mp hexhausted) hfailed'⟩

end Fate

/-! ## Calls -/

/-- Calls of `dispatch_due` on notifications of which none was delivered before. -/
def deliverer (settings : Settings) (outcomes : Outcomes) : TransitionSystem Deliverer Call where
  init w := (∀ n ∈ w.db.notificationOutbox.rows, n.status = .pending ∧ n.attempts = 0) ∧ w.made = []
  step := Deliverer.step settings outcomes

/-- A call delivers pending notifications only, and none before it is due. -/
def DeliversDue (w w' : Deliverer) : Prop :=
  ∃ deliveries, w'.made = w.made ++ deliveries ∧ ∀ d ∈ deliveries,
    ∃ n, w.row d.1 = some n ∧ n.status = .pending ∧ n.nextAttemptAt ≤ d.2

/-- The notifications are those with the given ids, and each row tells the deliveries made of it. -/
structure Told (settings : Settings) (outcomes : Outcomes) (ids : List UUID) (w : Deliverer) :
    Prop where
  rows : ∀ id, (w.row id).isSome ↔ id ∈ ids
  lawful : ∀ id n, w.row id = some n → n.attempts = w.count id ∧
    Lawful settings.notificationMaxAttempts (outcomes id) n
  made : ∀ d ∈ w.made, d.1 ∈ ids

section Calls

variable {settings : Settings} {outcomes : Outcomes} {w w' : Deliverer} {call : Call}
  {io : DeliveryInputs} {due : List NotificationOutbox} {n : NotificationOutbox} {ids : List UUID}

lemma attempted_sublist : (attempted io due).Sublist (due.map NotificationOutbox.id) := by
  induction due with
  | nil => exact List.Sublist.slnil
  | cons n due ih =>
      rw [attempted, List.map_cons]
      split
      · exact (List.nil_sublist _).cons_cons n.id
      · exact ih.cons_cons n.id

lemma attempted_of_quiet (h : ∀ n ∈ due, io.outcome n.id ≠ .raised) :
    attempted io due = due.map NotificationOutbox.id := by
  induction due with
  | nil => rfl
  | cons n due ih =>
      rw [attempted, if_neg (h n List.mem_cons_self), List.map_cons,
        ih fun m hm => h m (List.mem_cons_of_mem n hm)]

lemma row_of_mem_due (h : n ∈ w.due call) : w.row n.id = some n := Table.get?_of_mem_select h

lemma nodup_due (w : Deliverer) (call : Call) : ((w.due call).map NotificationOutbox.id).Nodup :=
  Table.nodup_select

lemma dueBy_of_mem_due (h : n ∈ w.due call) : n.status = .pending ∧ n.nextAttemptAt ≤ call.now := by
  have hclaimed := (Table.mem_of_mem_select h).2
  simp only [Bool.and_eq_true, decide_eq_true_eq] at hclaimed
  exact ⟨hclaimed.1.2, hclaimed.2⟩

/-- A call, taken apart. -/
lemma step_eq_some (h : w.step settings outcomes call = some w') :
    (∀ n ∈ w.due call, call.now ≤ call.deliveredAt n.id) ∧
      w' = ⟨(dispatchDue settings (w.inputs settings outcomes call) w.db [] call.batchSize
          call.now).getD w.db,
        w.made ++ (attempted (w.inputs settings outcomes call) (w.due call)).map
          fun id => (id, call.deliveredAt id), call.ended⟩ := by
  unfold Deliverer.step at h
  split at h
  · rename_i htimely
    refine ⟨?_, (Option.some.inj h).symm⟩
    simp only [Deliverer.timely, Bool.and_eq_true, List.all_eq_true, decide_eq_true_eq] at htimely
    intro n hn
    exact (htimely.2 n hn).1.1
  · cases h

lemma deliversDue_of_step (h : w.step settings outcomes call = some w') : DeliversDue w w' := by
  obtain ⟨hclock, rfl⟩ := step_eq_some h
  refine ⟨_, rfl, ?_⟩
  intro d hd
  obtain ⟨id, hid, rfl⟩ := List.mem_map.mp hd
  obtain ⟨n, hn, rfl⟩ := List.mem_map.mp (attempted_sublist.subset hid)
  obtain ⟨hpending, hdue⟩ := dueBy_of_mem_due hn
  exact ⟨n, row_of_mem_due hn, hpending, hdue.trans (hclock n hn)⟩

/-- A call in which nothing raises writes every due row by its own outcome and counts its
delivery; the other rows stay as they are. -/
lemma rows_of_step (h : w.step settings outcomes call = some w')
    (hquiet : ∀ n ∈ w.due call, (w.inputs settings outcomes call).outcome n.id ≠ .raised) :
    w'.made.map Prod.fst = w.made.map Prod.fst ++ (w.due call).map NotificationOutbox.id ∧
    (∀ id, id ∉ (w.due call).map NotificationOutbox.id → w'.row id = w.row id) ∧
    ∀ n ∈ w.due call,
      w'.row n.id = some (written settings (w.inputs settings outcomes call) n n) := by
  obtain ⟨-, rfl⟩ := step_eq_some h
  obtain ⟨db, hdb⟩ := Option.isSome_iff_exists.mp (dispatchDue_isSome.mpr hquiet)
  obtain ⟨hother, hdue⟩ := rows_of_dispatchDue hdb
  refine ⟨?_, ?_, ?_⟩
  · rw [attempted_of_quiet hquiet, List.map_append, List.map_map]
    simp
  · intro id hid
    rw [Deliverer.row, hdb]
    exact hother id hid
  · intro n hn
    rw [Deliverer.row, hdb]
    exact hdue n hn

lemma count_of_step (h : w.step settings outcomes call = some w')
    (hquiet : ∀ n ∈ w.due call, (w.inputs settings outcomes call).outcome n.id ≠ .raised)
    (id : UUID) :
    w'.count id = w.count id + if id ∈ (w.due call).map NotificationOutbox.id then 1 else 0 := by
  rw [Deliverer.count, (rows_of_step h hquiet).1, List.count_append, (nodup_due w call).count]
  rfl

end Calls

section Runs

variable {settings : Settings} {outcomes : Outcomes} {ids : List UUID} {w w' : Deliverer}
  {call : Call} (hfit : settings.WaitsFit)
  (htime : ∀ id ∈ ids, SettledInTime settings.notificationMaxAttempts (outcomes id))
include hfit htime

lemma quiet_of_told (h : Told settings outcomes ids w) (call : Call) :
    ∀ n ∈ w.due call, (w.inputs settings outcomes call).outcome n.id ≠ .raised := by
  intro n hn
  have hrow := row_of_mem_due hn
  obtain ⟨hcount, hlawful⟩ := h.lawful n.id n hrow
  have hid : n.id ∈ ids := (h.rows n.id).mp (by rw [hrow]; rfl)
  exact (lawful_written hfit (htime n.id hid) hrow hcount (dueBy_of_mem_due hn).1 hlawful
    call).1

/-- **Step.**  A call keeps what the rows tell. -/
lemma told_of_step (hstep : w.step settings outcomes call = some w')
    (h : Told settings outcomes ids w) : Told settings outcomes ids w' := by
  have hquiet := quiet_of_told hfit htime h call
  obtain ⟨hmade, hother, hdue⟩ := rows_of_step hstep hquiet
  have hcount := count_of_step hstep hquiet
  have hmem : ∀ n ∈ w.due call, n.id ∈ ids := fun n hn =>
    (h.rows n.id).mp (by rw [row_of_mem_due hn]; rfl)
  refine ⟨?_, ?_, ?_⟩
  · intro id
    by_cases hid : id ∈ (w.due call).map NotificationOutbox.id
    · obtain ⟨n, hn, rfl⟩ := List.mem_map.mp hid
      rw [hdue n hn]
      exact iff_of_true rfl (hmem n hn)
    · rw [hother id hid]
      exact h.rows id
  · intro id n hrow
    by_cases hid : id ∈ (w.due call).map NotificationOutbox.id
    · obtain ⟨n, hn, rfl⟩ := List.mem_map.mp hid
      have hbefore := row_of_mem_due hn
      obtain ⟨hattempts, hlawful⟩ := h.lawful n.id n hbefore
      obtain ⟨-, hnext, hlawful'⟩ := lawful_written hfit (htime n.id (hmem n hn)) hbefore
        hattempts (dueBy_of_mem_due hn).1 hlawful call
      obtain rfl := Option.some.inj ((hdue n hn).symm.trans hrow)
      refine ⟨?_, hlawful'⟩
      rw [hnext, hcount, if_pos hid, hattempts]
    · rw [hother id hid] at hrow
      rw [hcount, if_neg hid, Nat.add_zero]
      exact h.lawful id n hrow
  · intro d hd
    have hfst : d.1 ∈ w'.made.map Prod.fst := List.mem_map_of_mem hd
    rw [hmade] at hfst
    rcases List.mem_append.mp hfst with hold | hnew
    · obtain ⟨d', hd', heq⟩ := List.mem_map.mp hold
      exact heq ▸ h.made d' hd'
    · obtain ⟨n, hn, heq⟩ := List.mem_map.mp hnew
      exact heq ▸ hmem n hn

end Runs

/-! ## Unending runs -/

/-- Calls without end, each of which takes a row if one is due, on a clock that passes every
instant. -/
structure Unending (settings : Settings) (outcomes : Outcomes) (run : ℕ → Deliverer)
    (calls : ℕ → Call) : Prop where
  step : ∀ k, (deliverer settings outcomes).step (run k) (calls k) = some (run (k + 1))
  batch : ∀ k, 1 ≤ (calls k).batchSize
  clock : ∀ t k, ∃ k' ≥ k, t ≤ (calls k').now

lemma length_le_of_count_le {α : Type*} [DecidableEq α] {l ids : List α} {m : ℕ}
    (hmem : ∀ a ∈ l, a ∈ ids) (hcount : ∀ a ∈ ids, l.count a ≤ m) : l.length ≤ ids.length * m := by
  calc l.length = ∑ a ∈ l.toFinset, l.count a := (List.sum_toFinset_count_eq_length l).symm
    _ ≤ l.toFinset.card * m := by
        refine Finset.sum_le_card_nsmul _ _ _ fun a ha => hcount a (hmem a ?_)
        exact List.mem_toFinset.mp ha
    _ ≤ ids.length * m := by
        refine Nat.mul_le_mul_right m ((Finset.card_le_card ?_).trans ids.toFinset_card_le)
        intro a ha
        exact List.mem_toFinset.mpr (hmem a (List.mem_toFinset.mp ha))

section Ending

variable {settings : Settings} {outcomes : Outcomes} {ids : List UUID} {w w' : Deliverer}
  {call : Call} {run : ℕ → Deliverer} {calls : ℕ → Call}

/-- All deliveries together are at most `m` for each notification. -/
lemma length_made_le (h : Told settings outcomes ids w) :
    w.made.length ≤ ids.length * settings.notificationMaxAttempts := by
  rw [← List.length_map Prod.fst]
  refine length_le_of_count_le ?_ ?_
  · intro id hid
    obtain ⟨d, hd, rfl⟩ := List.mem_map.mp hid
    exact h.made d hd
  · intro id hid
    obtain ⟨n, hrow⟩ := Option.isSome_iff_exists.mp ((h.rows id).mpr hid)
    obtain ⟨hattempts, hlawful⟩ := h.lawful id n hrow
    show w.count id ≤ settings.notificationMaxAttempts
    rw [← hattempts]
    cases hstatus : n.status with
    | pending => exact (hlawful.pending hstatus).1.le
    | sent => exact (hlawful.sent hstatus).1
    | failed => exact (hlawful.failed hstatus).1.le

/-- A call that finds nothing due writes nothing. -/
lemma row_of_due_nil (h : w.step settings outcomes call = some w') (hnone : w.due call = [])
    (id : UUID) : w'.row id = w.row id := by
  refine (rows_of_step h ?_).2.1 id ?_
  · intro n hn
    rw [hnone] at hn
    cases hn
  · rw [hnone]
    exact List.not_mem_nil

lemma due_eq_nil_iff (hbatch : 1 ≤ call.batchSize) :
    w.due call = [] ↔ ∀ id n, w.row id = some n → n.status = .pending →
      call.now < n.nextAttemptAt := by
  rw [Deliverer.due, claimDue, Table.select_eq_nil, or_iff_right (by omega)]
  constructor
  · intro h id n hrow hpending
    have hn := h n (Table.get?_eq_some.mp hrow).1
    simpa [hpending] using hn
  · intro h n hn
    simp only [List.contains_nil, Bool.not_false, Bool.true_and, Bool.and_eq_true,
      decide_eq_true_eq, not_and, not_le]
    exact h n.id n (Table.get?_of_mem hn)

variable (hfit : settings.WaitsFit)
  (htime : ∀ id ∈ ids, SettledInTime settings.notificationMaxAttempts (outcomes id))
include hfit htime

lemma told_of_unending (hrun : Unending settings outcomes run calls)
    (h : Told settings outcomes ids (run 0)) (k : ℕ) : Told settings outcomes ids (run k) := by
  induction k with
  | zero => exact h
  | succ k ih => exact told_of_step hfit htime (hrun.step k) ih

/-- While a notification is pending, a later call delivers one. -/
lemma delivers_of_pending (hrun : Unending settings outcomes run calls)
    (h : Told settings outcomes ids (run 0)) {k : ℕ} {id : UUID} {n : NotificationOutbox}
    (hrow : (run k).row id = some n) (hpending : n.status = .pending) :
    ∃ k' ≥ k, (run k').made.length < (run (k' + 1)).made.length := by
  have hlength : ∀ k, (run (k + 1)).made.length =
      (run k).made.length + ((run k).due (calls k)).length := by
    intro k
    have hquiet := quiet_of_told hfit htime (told_of_unending hfit htime hrun h k) (calls k)
    have hmade := congrArg List.length (rows_of_step (hrun.step k) hquiet).1
    simpa using hmade
  by_contra hnone
  have hidle : ∀ k' ≥ k, (run k').due (calls k') = [] := by
    intro k' hk'
    by_contra hdue
    refine hnone ⟨k', hk', ?_⟩
    rw [hlength]
    exact Nat.lt_add_of_pos_right (List.length_pos_iff.mpr hdue)
  have hsame : ∀ k' ≥ k, (run k').row id = some n := by
    intro k' hk'
    induction k', hk' using Nat.le_induction with
    | base => exact hrow
    | succ k' hk' ih => exact (row_of_due_nil (hrun.step k') (hidle k' hk') id).trans ih
  obtain ⟨k', hk', hclock⟩ := hrun.clock n.nextAttemptAt k
  have hlater := (due_eq_nil_iff (hrun.batch k')).mp (hidle k' hk') id n (hsame k' hk') hpending
  exact absurd hclock (not_le.mpr hlater)

/-- In an unending run no notification is pending in the end. -/
lemma settled_of_unending (hrun : Unending settings outcomes run calls)
    (h : Told settings outcomes ids (run 0)) :
    ∃ k₀, ∀ k ≥ k₀, ∀ id n, (run k).row id = some n → n.status ≠ .pending := by
  have htold := told_of_unending hfit htime hrun h
  have hmono : Monotone fun k => (run k).made.length := by
    refine monotone_nat_of_le_succ fun k => ?_
    obtain ⟨deliveries, hmade, -⟩ := deliversDue_of_step (hrun.step k)
    rw [hmade, List.length_append]
    exact Nat.le_add_right ..
  obtain ⟨k₀, hsettled⟩ : ∃ k, ∀ id n, (run k).row id = some n → n.status ≠ .pending := by
    refine exists_of_bounded hmono (fun k => length_made_le (htold k)) fun k hk => ?_
    push Not at hk
    obtain ⟨id, n, hrow, hpending⟩ := hk
    exact delivers_of_pending hfit htime hrun h hrow hpending
  refine ⟨k₀, fun k hk => ?_⟩
  induction k, hk using Nat.le_induction with
  | base => exact hsettled
  | succ k hk ih =>
      have hnone : (run k).due (calls k) = [] :=
        (due_eq_nil_iff (hrun.batch k)).mpr fun id n hrow hpending =>
          absurd hpending (ih id n hrow)
      intro id n hrow
      rw [row_of_due_nil (hrun.step k) hnone id] at hrow
      exact ih id n hrow

end Ending

section Law

variable {settings : Settings} {outcomes : Outcomes} {w w' : Deliverer} {call : Call}

lemma told_of_init (hm : 1 ≤ settings.notificationMaxAttempts)
    (hinit : (deliverer settings outcomes).init w) :
    Told settings outcomes (w.db.notificationOutbox.rows.map NotificationOutbox.id) w := by
  obtain ⟨hrows, hmade⟩ := hinit
  refine ⟨?_, ?_, by simp [hmade]⟩
  · intro id
    constructor
    · intro hrow
      obtain ⟨n, hn⟩ := Option.isSome_iff_exists.mp hrow
      obtain ⟨hmem, rfl⟩ := Table.get?_eq_some.mp hn
      exact List.mem_map_of_mem hmem
    · intro hid
      obtain ⟨n, hn, rfl⟩ := List.mem_map.mp hid
      rw [Deliverer.row, Table.get?_of_mem hn]
      rfl
  · intro id n hrow
    obtain ⟨hpending, hattempts⟩ := hrows n (Table.get?_eq_some.mp hrow).1
    refine ⟨?_, ?_, ?_, ?_⟩
    · rw [Deliverer.count, hmade, hattempts]
      rfl
    · rw [hattempts]
      exact fun _ => ⟨hm, fun j hj => absurd hj (Nat.not_lt_zero j)⟩
    · intro hsent
      exact nomatch hpending.symm.trans hsent
    · intro hfailed
      exact nomatch hpending.symm.trans hfailed

/-- There are unending runs from everywhere. -/
lemma exists_unending (settings : Settings) (outcomes : Outcomes) (w : Deliverer) :
    ∃ run calls, run 0 = w ∧ Unending settings outcomes run calls := by
  let calls (k : ℕ) : Call :=
    ⟨1, w.clock + k, fun _ => w.clock + k, fun _ => w.clock + k, w.clock + k, fun _ => 0⟩
  let run (k : ℕ) : Deliverer :=
    Nat.rec w (fun k v => (v.step settings outcomes (calls k)).getD v) k
  have hstep : ∀ k, (run k).clock ≤ w.clock + k →
      ∃ v, (run k).step settings outcomes (calls k) = some v ∧ v.clock = w.clock + k := by
    intro k hclock
    have htimely : (run k).timely (calls k) := by
      simp [Deliverer.timely, calls, hclock]
    rw [Deliverer.step, if_pos htimely]
    exact ⟨_, rfl, rfl⟩
  have hclock : ∀ k, (run k).clock ≤ w.clock + k := by
    intro k
    induction k with
    | zero => exact (add_zero w.clock).ge
    | succ k ih =>
        obtain ⟨v, hv, hended⟩ := hstep k ih
        have hnext : run (k + 1) = v := by
          show ((run k).step settings outcomes (calls k)).getD (run k) = v
          rw [hv]
          rfl
        rw [hnext, hended]
        exact Int.add_le_add_left (Int.ofNat_le.mpr (Nat.le_succ k)) _
  refine ⟨run, calls, rfl, ?_, fun _ => le_rfl, ?_⟩
  · intro k
    obtain ⟨v, hv, -⟩ := hstep k (hclock k)
    show (run k).step settings outcomes (calls k) =
      some (((run k).step settings outcomes (calls k)).getD (run k))
    rw [hv]
    rfl
  · intro t k
    refine ⟨k + (t - w.clock).toNat, Nat.le_add_right .., ?_⟩
    show t ≤ w.clock + ((k + (t - w.clock).toNat : ℕ) : ℤ)
    have hpassed := Int.self_le_toNat (t - w.clock)
    push_cast
    linarith

/-- A notification whose deliveries all fail does not get past the attempt 1024: the next wait
raises, and the call is rolled back. -/
lemma stuck_of_step (hm : 1025 < settings.notificationMaxAttempts) {id : UUID}
    (hfails : ∀ j, (outcomes id j).isSome) (hstep : w.step settings outcomes call = some w')
    (h : ∃ n, w.row id = some n ∧ n.status = .pending ∧ n.attempts ≤ 1024) :
    ∃ n, w'.row id = some n ∧ n.status = .pending ∧ n.attempts ≤ 1024 := by
  obtain ⟨n, hrow, hpending, hattempts⟩ := h
  obtain rfl : n.id = id := Table.key_of_get? hrow
  by_cases hquiet : ∀ n ∈ w.due call, (w.inputs settings outcomes call).outcome n.id ≠ .raised
  · obtain ⟨-, hother, hdue⟩ := rows_of_step hstep hquiet
    by_cases hid : n.id ∈ (w.due call).map NotificationOutbox.id
    · obtain ⟨n', hn, heq⟩ := List.mem_map.mp hid
      obtain rfl : n' = n := Option.some.inj ((row_of_mem_due hn).symm.trans (heq ▸ hrow))
      obtain ⟨message, hmessage⟩ := Option.isSome_iff_exists.mp (hfails (w.count n'.id))
      have houtcome : (w.inputs settings outcomes call).outcome n'.id = _ :=
        outcome_of_failure hrow hmessage
      have hmore : ¬ settings.notificationMaxAttempts ≤ n'.attempts + 1 := by omega
      cases hwait : retryWait (n'.attempts + 1) settings (call.draw n'.id) with
      | error e =>
          rw [hwait] at houtcome
          dsimp only at houtcome
          rw [if_neg hmore] at houtcome
          exact absurd houtcome (hquiet n' hn)
      | ok wait =>
          rw [hwait] at houtcome
          refine ⟨_, hdue n' hn, ?_⟩
          rw [written, houtcome]
          dsimp only
          rw [if_neg hmore]
          refine ⟨hpending, ?_⟩
          show n'.attempts + 1 ≤ 1024
          by_contra hlate
          cases hwait.symm.trans (retryWait_of_gt (not_le.mp hlate) _)
    · exact ⟨n, (hother n.id hid).trans hrow, hpending, hattempts⟩
  · -- the call is rolled back
    have haborted : dispatchDue settings (w.inputs settings outcomes call) w.db [] call.batchSize
        call.now = none := Option.not_isSome_iff_eq_none.mp (mt dispatchDue_isSome.mp hquiet)
    obtain ⟨-, rfl⟩ := step_eq_some hstep
    refine ⟨n, ?_, hpending, hattempts⟩
    rw [Deliverer.row, haborted]
    exact hrow

end Law

/-! ## One notification -/

namespace Scenario

def notification : NotificationOutbox where
  id := ⟨1⟩
  jobId := ⟨1⟩
  userId := "user"
  channel := .webhook
  destination := "https://example.com/hook"
  eventType := .failed
  payload := ⟨⟨1⟩, .alwaysFail, .failed, .failed, none, some "INVALID_INPUT", none⟩
  status := .pending
  attempts := 0
  nextAttemptAt := 0
  dedupeKey := ⟨⟨1⟩, .failed⟩
  lastError := none
  createdAt := 0
  sentAt := none
  dedupeKey_eq := rfl

def waiting : Deliverer :=
  ⟨{ Database.empty with notificationOutbox := ⟨[notification], List.nodup_singleton _⟩ }, [], 0⟩

lemma init_waiting (settings : Settings) (outcomes : Outcomes) :
    (deliverer settings outcomes).init waiting := by
  refine ⟨?_, rfl⟩
  intro n hn
  obtain rfl := List.mem_singleton.mp hn
  exact ⟨rfl, rfl⟩

end Scenario

/-! ## The law -/

/-- **The retries of a notification.**  If every notification is settled by the attempt 1025 at the
latest, then in every run the attempts of a row are the deliveries made of it, a row that is not
pending is settled as its outcomes want it, and a call delivers pending rows only and none before
it is due; and in a run without end every row is settled. -/
theorem retry_law {settings : Settings} {outcomes : Outcomes} {w : Deliverer}
    (hfit : settings.WaitsFit) (hm : 1 ≤ settings.notificationMaxAttempts)
    (hinit : (deliverer settings outcomes).init w)
    (htime : ∀ n ∈ w.db.notificationOutbox.rows,
      SettledInTime settings.notificationMaxAttempts (outcomes n.id)) :
    (∀ w', (deliverer settings outcomes).Steps Always w w' →
      (∀ id, (w'.row id).isSome ↔ (w.row id).isSome) ∧
      (∀ id n, w'.row id = some n → n.attempts = w'.count id ∧
        (n.status ≠ .pending → SettledBy settings.notificationMaxAttempts (outcomes id) n)) ∧
      ∀ call w'', (deliverer settings outcomes).step w' call = some w'' → DeliversDue w' w'') ∧
    ∀ run calls, run 0 = w → Unending settings outcomes run calls →
      ∃ k₀, ∀ k ≥ k₀, ∀ id n, (run k).row id = some n →
        SettledBy settings.notificationMaxAttempts (outcomes id) n := by
  have htold := told_of_init hm hinit
  have htime' : ∀ id ∈ w.db.notificationOutbox.rows.map NotificationOutbox.id,
      SettledInTime settings.notificationMaxAttempts (outcomes id) := by
    intro id hid
    obtain ⟨n, hn, rfl⟩ := List.mem_map.mp hid
    exact htime n hn
  constructor
  · intro w' hsteps
    have htold' : Told settings outcomes
        (w.db.notificationOutbox.rows.map NotificationOutbox.id) w' := by
      refine hsteps.preserves ?_ htold
      intro v call v' _ hstep h
      exact told_of_step hfit htime' hstep h
    refine ⟨fun id => (htold'.rows id).trans (htold.rows id).symm, ?_, ?_⟩
    · intro id n hrow
      obtain ⟨hattempts, hlawful⟩ := htold'.lawful id n hrow
      exact ⟨hattempts, settledBy_of_lawful hlawful⟩
    · intro call w'' hstep
      exact deliversDue_of_step hstep
  · rintro run calls rfl hrun
    obtain ⟨k₀, hsettled⟩ := settled_of_unending hfit htime' hrun htold
    refine ⟨k₀, fun k hk id n hrow => ?_⟩
    have hlawful := ((told_of_unending hfit htime' hrun htold k).lawful id n hrow).2
    exact settledBy_of_lawful hlawful (hsettled k hk id n hrow)

/-- A notification whose second delivery succeeds. -/
theorem retry_law_second : ∃ run calls, run 0 = Scenario.waiting ∧
    Unending {} (fun _ j => if j = 0 then some "refused" else none) run calls ∧
    ∃ k₀, ∀ k ≥ k₀, ∀ id n, (run k).row id = some n → n.status = .sent ∧ n.attempts = 2 := by
  obtain ⟨run, calls, hstart, hrun⟩ :=
    exists_unending {} (fun _ j => if j = 0 then some "refused" else none) Scenario.waiting
  have hfit : ({} : Settings).WaitsFit := by
    refine ⟨?_, ?_, ?_, ?_, ?_, ?_, ?_, ?_⟩ <;> decide +kernel
  obtain ⟨-, hended⟩ := retry_law hfit (by decide) (Scenario.init_waiting _ _)
    fun _ _ => Or.inl (by decide)
  obtain ⟨k₀, hsettled⟩ := hended run calls hstart hrun
  refine ⟨run, calls, hstart, hrun, k₀, fun k hk id n hrow => ?_⟩
  refine (hsettled k hk id n hrow).1 2 (by decide) ⟨by decide, rfl, ?_⟩
  intro j hj
  obtain rfl : j = 0 := by omega
  rfl

/-- A notification with 1026 attempts, all of which fail: no run ever ends it. -/
theorem retries_stuck : ∃ run calls,
    (deliverer { notificationMaxAttempts := 1026 } fun _ _ => some "refused").init (run 0) ∧
    Unending { notificationMaxAttempts := 1026 } (fun _ _ => some "refused") run calls ∧
    ∀ k, ∃ n, (run k).row ⟨1⟩ = some n ∧ n.status = .pending ∧
      ¬ SettledBy 1026 (fun _ => some "refused") n := by
  obtain ⟨run, calls, hstart, hrun⟩ := exists_unending { notificationMaxAttempts := 1026 }
    (fun _ _ => some "refused") Scenario.waiting
  refine ⟨run, calls, by rw [hstart]; exact Scenario.init_waiting _ _, hrun, fun k => ?_⟩
  have hstuck : ∃ n, (run k).row ⟨1⟩ = some n ∧ n.status = .pending ∧ n.attempts ≤ 1024 := by
    induction k with
    | zero =>
        rw [hstart]
        exact ⟨Scenario.notification, rfl, rfl, Nat.zero_le _⟩
    | succ k ih => exact stuck_of_step (by decide) (fun _ => rfl) (hrun.step k) ih
  obtain ⟨n, hrow, hpending, -⟩ := hstuck
  refine ⟨n, hrow, hpending, fun hsettled => ?_⟩
  have hfailed := (hsettled.2 fun i hi => not_firstSuccess (fun _ _ => rfl) hi).1
  exact nomatch hpending.symm.trans hfailed

end NotificationService

end JobOrchestrator
