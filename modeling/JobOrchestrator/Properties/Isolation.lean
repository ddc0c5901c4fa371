import JobOrchestrator.Api.Jobs
import JobOrchestrator.Properties.Idempotency
import JobOrchestrator.Properties.Pagination
import JobOrchestrator.Properties.Progress
import JobOrchestrator.Properties.TimelineOrder
import Mathlib.Data.List.Pairwise

/-!
# Isolation of the users

Two databases agree for a user when they hold the same rows about the jobs of the user, in any
order; about everybody else they may differ arbitrarily.  The same request of that user, with the
same clock and ids that neither database has in use, is then answered alike, and leaves two
databases that agree again.  In each of them only rows of jobs of the user are written.
-/

namespace JobOrchestrator

open SubmissionService CancellationService TransitionSystem

/-! ## What two databases share -/

/-- The job exists and belongs to the user. -/
def Owned (userId : String) (r : JobRecord) : Prop := ∃ job, r.row = some job ∧ job.userId = userId

/-- The two records have the same rows in `jobs`, `job_events` and the two outboxes. -/
structure SameRows (r r' : JobRecord) : Prop where
  row : r.row = r'.row
  events : r.events.Perm r'.events
  outbox : r.outbox.Perm r'.outbox
  notifications : r.notifications.Perm r'.notifications

/-- The two databases hold the same rows about the jobs of the user. -/
def Agree (userId : String) (db db' : Database) : Prop :=
  ∀ jobId, Owned userId (db.record jobId) ∨ Owned userId (db'.record jobId) →
    SameRows (db.record jobId) (db'.record jobId)

/-- The two rows do not collide on `uq_jobs_user_idempotency_key`, which ignores null keys. -/
def DifferentKeys (job job' : Job) : Prop :=
  job.userId = job'.userId → job.idempotencyKey = job'.idempotencyKey → job.idempotencyKey = none

instance (job job' : Job) : Decidable (DifferentKeys job job') :=
  inferInstanceAs (Decidable (_ → _ → _))

instance : Std.Symm DifferentKeys where
  symm _ _ hdiffer huser hkey := hkey.trans (hdiffer huser.symm hkey.symm)

/-- The constraints of the schema that the tables do not carry already: the foreign keys to
`jobs`, the primary key of `job_events`, and the unique index on the idempotency keys. -/
structure Constraints (db : Database) : Prop where
  attempts : ∀ a ∈ db.jobAttempts.rows, (db.jobs.get? a.jobId).isSome
  events : ∀ e ∈ db.jobEvents, (db.jobs.get? e.jobId).isSome
  outbox : ∀ o ∈ db.dispatchOutbox.rows, (db.jobs.get? o.jobId).isSome
  notifications : ∀ n ∈ db.notificationOutbox.rows, (db.jobs.get? n.jobId).isSome
  eventIds : EventIdsUnique db
  idempotencyKeys : db.jobs.rows.Pairwise DifferentKeys

instance (db : Database) : Decidable (Constraints db) :=
  decidable_of_iff
    ((∀ a ∈ db.jobAttempts.rows, (db.jobs.get? a.jobId).isSome) ∧
      (∀ e ∈ db.jobEvents, (db.jobs.get? e.jobId).isSome) ∧
      (∀ o ∈ db.dispatchOutbox.rows, (db.jobs.get? o.jobId).isSome) ∧
      (∀ n ∈ db.notificationOutbox.rows, (db.jobs.get? n.jobId).isSome) ∧
      EventIdsUnique db ∧ db.jobs.rows.Pairwise DifferentKeys)
    ⟨fun ⟨ha, he, ho, hn, hids, hkeys⟩ => ⟨ha, he, ho, hn, hids, hkeys⟩,
      fun h => ⟨h.attempts, h.events, h.outbox, h.notifications, h.eventIds, h.idempotencyKeys⟩⟩

/-- The ids that the transaction draws are in no table. -/
structure Fresh (tx : Tx) (db : Database) : Prop where
  jobId : db.jobs.get? tx.jobId = none
  outboxId : db.dispatchOutbox.get? tx.outboxId = none
  notificationId : ∀ jobId, db.notificationOutbox.get? (tx.notificationId jobId) = none

/-- What was written are rows of jobs of the user. -/
structure Confined (userId : String) (db db' : Database) : Prop where
  /-- No row of another user is changed. -/
  others : ∀ jobId job, (db.record jobId).row = some job → job.userId ≠ userId →
    db'.record jobId = db.record jobId
  /-- What is changed or added is a row of the user. -/
  own : ∀ jobId, db'.record jobId ≠ db.record jobId → Owned userId (db'.record jobId)
  /-- No attempt is touched. -/
  jobAttempts : db'.jobAttempts = db.jobAttempts

lemma SameRows.refl (r : JobRecord) : SameRows r r := ⟨rfl, .refl _, .refl _, .refl _⟩

lemma Confined.refl (userId : String) (db : Database) : Confined userId db db :=
  ⟨fun _ _ _ _ => rfl, fun _ h => absurd rfl h, rfl⟩

section Agree

variable {userId : String} {db₁ db₂ db₁' db₂' : Database} {jobId : UUID} {job : Job}

/-- The databases have the same jobs of the user. -/
lemma Agree.mem_iff (h : Agree userId db₁ db₂) (huser : job.userId = userId) :
    job ∈ db₁.jobs.rows ↔ job ∈ db₂.jobs.rows := by
  have hmem : ∀ db : Database, job ∈ db.jobs.rows ↔ (db.record job.id).row = some job := by
    intro db
    rw [Database.record_row, Table.get?_eq_some]
    simp
  rw [hmem db₁, hmem db₂]
  constructor
  · intro hrow
    rw [← (h job.id (Or.inl ⟨job, hrow, huser⟩)).row]
    exact hrow
  · intro hrow
    rw [(h job.id (Or.inr ⟨job, hrow, huser⟩)).row]
    exact hrow

/-- What a query for the rows of the user finds. -/
lemma Agree.filter_perm (h : Agree userId db₁ db₂) {p : Job → Bool}
    (hp : ∀ job, p job → job.userId = userId) :
    (db₁.jobs.rows.filter p).Perm (db₂.jobs.rows.filter p) := by
  have hnodup : ∀ db : Database, (db.jobs.rows.filter p).Nodup := fun db =>
    (List.Nodup.of_map Job.id db.jobs.nodup).filter p
  refine (List.perm_ext_iff_of_nodup (hnodup db₁) (hnodup db₂)).mpr fun job => ?_
  rw [List.mem_filter, List.mem_filter]
  exact and_congr_left fun hmatch => h.mem_iff (hp job hmatch)

lemma Agree.countP_eq (h : Agree userId db₁ db₂) {p : Job → Bool}
    (hp : ∀ job, p job → job.userId = userId) :
    db₁.jobs.rows.countP p = db₂.jobs.rows.countP p := by
  rw [List.countP_eq_length_filter, List.countP_eq_length_filter]
  exact (h.filter_perm hp).length_eq

/-- Writing the same rows of one job keeps an agreement. -/
lemma Agree.update {r₁ r₂ : JobRecord} (h : Agree userId db₁ db₂)
    (h₁ : db₁'.record = Function.update db₁.record jobId r₁)
    (h₂ : db₂'.record = Function.update db₂.record jobId r₂) (hsame : SameRows r₁ r₂) :
    Agree userId db₁' db₂' := by
  intro j hj
  rw [h₁, h₂] at hj ⊢
  by_cases hjob : j = jobId
  · rw [hjob, Function.update_self, Function.update_self]
    exact hsame
  · rw [Function.update_of_ne hjob, Function.update_of_ne hjob] at hj ⊢
    exact h j hj

end Agree

/-- Writing the rows of one job that is new or of the user. -/
lemma confined_update {userId : String} {db db' : Database} {jobId : UUID} {r : JobRecord}
    (hrecord : db'.record = Function.update db.record jobId r)
    (hbefore : ∀ job, (db.record jobId).row = some job → job.userId = userId)
    (hafter : Owned userId r) (hattempts : db'.jobAttempts = db.jobAttempts) :
    Confined userId db db' where
  others j job hrow hother := by
    have hne : j ≠ jobId := by
      rintro rfl
      exact hother (hbefore job hrow)
    rw [hrecord, Function.update_of_ne hne]
  own j hchanged := by
    rw [hrecord] at hchanged ⊢
    by_cases hjob : j = jobId
    · rw [hjob, Function.update_self]
      exact hafter
    · exact absurd (Function.update_of_ne hjob ..) hchanged
  jobAttempts := hattempts

/-- What one user does is invisible to every other. -/
theorem agree_of_confined {userId other : String} {db db' : Database}
    (h : Confined other db db') (hother : userId ≠ other) : Agree userId db db' := by
  intro jobId howned
  have hsame : db'.record jobId = db.record jobId := by
    rcases howned with ⟨job, hrow, huser⟩ | ⟨job, hrow, huser⟩
    · exact h.others jobId job hrow (huser ▸ hother)
    · by_contra hchanged
      obtain ⟨job', hrow', huser'⟩ := h.own jobId hchanged
      obtain rfl := Option.some.inj (hrow.symm.trans hrow')
      exact hother (huser.symm.trans huser')
  rw [hsame]
  exact .refl _

/-- The constraints are no more than what every run keeps, as far as the ids of the events are
unique. -/
theorem constraints_of_reachable {settings : Settings} {s : System settings.workerConcurrency}
    (h : (orchestrator settings).Reachable Always s) (hids : EventIdsUnique s.db) :
    Constraints s.db := by
  have hempty : ∀ i, s.db.jobs.get? i = none → s.db.record i = JobRecord.empty :=
    fun i hnone => (linked_of_reachable h i).fresh hnone
  have hexists : ∀ {α : Type} (rows : JobRecord → List α) {i : UUID} {a : α},
      rows JobRecord.empty = [] → a ∈ rows (s.db.record i) → (s.db.jobs.get? i).isSome := by
    intro α rows i a hnil ha
    by_contra hnone
    rw [hempty i (Option.not_isSome_iff_eq_none.mp hnone), hnil] at ha
    cases ha
  refine ⟨fun a ha => ?_, fun e he => ?_, fun o ho => ?_, fun n hn => ?_, hids, ?_⟩
  · exact hexists JobRecord.attempts rfl (Table.mem_children.mpr ⟨ha, rfl⟩)
  · exact hexists JobRecord.events rfl (List.mem_filter.mpr ⟨he, decide_eq_true rfl⟩)
  · exact hexists JobRecord.outbox rfl (Table.mem_children.mpr ⟨ho, rfl⟩)
  · exact hexists JobRecord.notifications rfl (Table.mem_children.mpr ⟨hn, rfl⟩)
  · refine (List.Nodup.of_map Job.id s.db.jobs.nodup).pairwise_of_forall_ne ?_
    intro job hjob job' hjob' hne huser hkey
    by_contra hsome
    obtain ⟨key, hkeyed⟩ := Option.ne_none_iff_exists'.mp hsome
    exact hne (keysUnique_of_reachable h job.userId key job hjob job' hjob' ⟨rfl, hkeyed⟩
      ⟨huser.symm, hkey.symm.trans hkeyed⟩)

/-! ## Queries of one user -/

section Queries

variable {userId : String} {db₁ db₂ : Database} {jobId : UUID} {job : Job}

lemma Agree.getForUser_eq (h : Agree userId db₁ db₂) (jobId : UUID) :
    JobRepository.getForUser db₁ jobId userId = JobRepository.getForUser db₂ jobId userId := by
  by_cases howned : Owned userId (db₁.record jobId) ∨ Owned userId (db₂.record jobId)
  · have hrow : db₁.jobs.get? jobId = db₂.jobs.get? jobId := (h jobId howned).row
    rw [JobRepository.getForUser, hrow]
    rfl
  · have hnone : ∀ db : Database, ¬ Owned userId (db.record jobId) →
        JobRepository.getForUser db jobId userId = none := by
      intro db hnot
      refine Option.filter_eq_none_iff.mpr fun job hrow huser => hnot ⟨job, hrow, ?_⟩
      simpa using huser
    rw [hnone db₁ (mt Or.inl howned), hnone db₂ (mt Or.inr howned)]

/-- The row that a query for a job of the user finds. -/
lemma owned_of_getForUser {db : Database}
    (h : JobRepository.getForUser db jobId userId = some job) :
    (db.record jobId).row = some job ∧ job.userId = userId := by
  obtain ⟨hrow, huser⟩ := Option.filter_eq_some_iff.mp h
  exact ⟨hrow, by simpa using huser⟩

lemma Constraints.getByIdempotencyKey_eq_some {db : Database} (h : Constraints db) {key : String} :
    JobRepository.getByIdempotencyKey db userId key = some job ↔
      job ∈ db.jobs.rows ∧ job.userId = userId ∧ job.idempotencyKey = some key := by
  have hmatches : ∀ {twin : Job}, JobRepository.getByIdempotencyKey db userId key = some twin →
      twin ∈ db.jobs.rows ∧ twin.userId = userId ∧ twin.idempotencyKey = some key := by
    intro twin hfound
    have hmatch := List.find?_some hfound
    simp only [Bool.and_eq_true, decide_eq_true_eq] at hmatch
    exact ⟨List.mem_of_find?_eq_some hfound, hmatch⟩
  refine ⟨hmatches, ?_⟩
  rintro ⟨hjob, huser, hkey⟩
  have hsome : (JobRepository.getByIdempotencyKey db userId key).isSome :=
    List.find?_isSome.mpr ⟨job, hjob, by simp [huser, hkey]⟩
  obtain ⟨twin, htwin⟩ := Option.isSome_iff_exists.mp hsome
  obtain ⟨hmem, htwinUser, htwinKey⟩ := hmatches htwin
  by_contra hother
  have hne : twin ≠ job := by
    rintro rfl
    exact hother htwin
  have hnone := h.idempotencyKeys.forall hmem hjob hne (htwinUser.trans huser.symm)
    (htwinKey.trans hkey.symm)
  rw [htwinKey] at hnone
  cases hnone

lemma Agree.findExisting_eq (h : Agree userId db₁ db₂) (hc₁ : Constraints db₁)
    (hc₂ : Constraints db₂) {args : SubmitArgs} (huser : args.userId = userId) :
    findExisting db₁ args = findExisting db₂ args := by
  unfold findExisting
  refine congrArg args.idempotencyKey.bind (funext fun key => Option.ext fun job => ?_)
  rw [huser, hc₁.getByIdempotencyKey_eq_some, hc₂.getByIdempotencyKey_eq_some]
  exact and_congr_left fun hmatch => h.mem_iff hmatch.1

lemma Agree.countActiveForUser_eq (h : Agree userId db₁ db₂) :
    JobRepository.countActiveForUser db₁ userId = JobRepository.countActiveForUser db₂ userId :=
  h.countP_eq fun job hmatch => by
    simp only [Bool.and_eq_true, decide_eq_true_eq] at hmatch
    exact hmatch.1

lemma Agree.statusCounts_eq (h : Agree userId db₁ db₂) :
    JobRepository.statusCounts db₁ userId = JobRepository.statusCounts db₂ userId := by
  have hcount : ∀ status,
      (db₁.jobs.rows.countP fun job => job.userId = userId && job.status = status) =
        db₂.jobs.rows.countP fun job => job.userId = userId && job.status = status := fun status =>
    h.countP_eq fun job hmatch => by
      simp only [Bool.and_eq_true, decide_eq_true_eq] at hmatch
      exact hmatch.1
  simp only [JobRepository.statusCounts, hcount]

lemma Agree.listForUser_eq (h : Agree userId db₁ db₂) {status : Option JobStatus}
    {jobType : Option JobType} {cursor : Option (Time ×ₗ Fin (2 ^ 128))} {limit : ℕ} :
    JobRepository.listForUser db₁ userId status jobType cursor limit =
      JobRepository.listForUser db₂ userId status jobType cursor limit := by
  unfold JobRepository.listForUser
  refine congrArg (List.take limit) (descending_congr ?_ (h.filter_perm fun job hmatch => ?_))
  · exact (List.filter_sublist.map _).nodup nodup_position
  · simp only [Bool.and_eq_true, decide_eq_true_eq] at hmatch
    exact hmatch.1.1.1

/-- The timeline of a job of the user. -/
lemma Agree.listForJob_eq (h : Agree userId db₁ db₂) (hc₁ : Constraints db₁)
    (howned : Owned userId (db₁.record jobId)) {limit : ℕ} :
    JobEventRepository.listForJob db₁ jobId limit =
      JobEventRepository.listForJob db₂ jobId limit := by
  unfold JobEventRepository.listForJob
  exact congrArg (List.take limit) (descending_congr (nodup_orderKey hc₁.eventIds jobId)
    (h jobId (Or.inl howned)).events)

end Queries

/-! ## Two runs of one operation -/

/-- Two runs of one operation, of the same user, on two databases: the same answer, databases that
agree for the user, and no write outside the rows of the user. -/
structure Isolated {α : Type} (userId : String) (db₁ db₂ : Database) (out₁ out₂ : Database × α) :
    Prop where
  answer : out₁.2 = out₂.2
  agree : Agree userId out₁.1 out₂.1
  confined₁ : Confined userId db₁ out₁.1
  confined₂ : Confined userId db₂ out₂.1

section Runs

variable {settings : Settings} {userId : String} {db₁ db₂ : Database} {jobId : UUID} {job : Job}
  {tx : Tx} {now : Time} {reason : Option String} {args : SubmitArgs} {r r' : JobRecord}

/-- An operation that only reads. -/
lemma isolated_of_read {α : Type} {a₁ a₂ : α} (hagree : Agree userId db₁ db₂) (h : a₁ = a₂) :
    Isolated userId db₁ db₂ (db₁, a₁) (db₂, a₂) :=
  ⟨h, hagree, .refl .., .refl ..⟩

/-- The same answer made of the same outcome. -/
lemma Isolated.map {α β : Type} {db₁' db₂' : Database} {a₁ a₂ : α}
    (h : Isolated userId db₁ db₂ (db₁', a₁) (db₂', a₂)) (f : α → β) :
    Isolated userId db₁ db₂ (db₁', f a₁) (db₂', f a₂) :=
  ⟨congrArg f h.answer, h.agree, h.confined₁, h.confined₂⟩

/-! ### Cancellation -/

lemma SameRows.enqueue (h : SameRows r r') (n : NotificationOutbox) :
    SameRows (r.enqueue n) (r'.enqueue n) := by
  unfold JobRecord.enqueue
  rw [h.notifications.any_eq]
  split
  · exact h
  · exact ⟨h.row, h.events, h.outbox, h.notifications.append_right [n]⟩

/-- A cancellation makes of the same rows the same rows. -/
lemma SameRows.written (h : SameRows r r') :
    SameRows (CancellationService.written tx reason now job r)
      (CancellationService.written tx reason now job r') := by
  unfold CancellationService.written
  split
  · exact h
  · split
    · exact ⟨rfl, h.events.append_right _, h.outbox, h.notifications⟩
    · refine SameRows.enqueue ?_ _
      exact ⟨rfl, h.events.append_right _, h.outbox, h.notifications⟩

/-- A cancelled job stays with its user. -/
lemma owned_written (hrow : r.row = some job) (huser : job.userId = userId) :
    Owned userId (CancellationService.written tx reason now job r) := by
  unfold CancellationService.written
  split
  · exact ⟨job, hrow, huser⟩
  · split
    · exact ⟨_, rfl, huser⟩
    · exact ⟨_, JobRecord.enqueue_row, huser⟩

/-- With a fresh id for its notification, a cancellation commits. -/
lemma exists_cancel (jobId : UUID) (userId : String) (reason : Option String) (now : Time)
    {db : Database} (hfresh : Fresh tx db) :
    ∃ db' outcome, cancel db tx jobId userId reason now = some (db', outcome) := by
  have hsome : (cancel db tx jobId userId reason now).isSome := by
    unfold cancel
    split
    · rfl
    · split
      · rfl
      · split
        · rfl
        · split
          · rfl
          · rw [Option.isSome_map]
            exact enqueue_isSome (hfresh.notificationId _)
  obtain ⟨⟨db', outcome⟩, h⟩ := Option.isSome_iff_exists.mp hsome
  exact ⟨db', outcome, h⟩

lemma confined_cancel {db db' : Database} {outcome : CancelOutcome}
    (hlock : JobRepository.lockForUser db jobId userId = some job)
    (h : cancel db tx jobId userId reason now = some (db', outcome)) :
    Confined userId db db' := by
  obtain ⟨hrow, huser⟩ := owned_of_getForUser hlock
  obtain ⟨-, hattempts, hrecord⟩ := cancel_of_lock hlock h
  refine confined_update hrecord ?_ (owned_written hrow huser) hattempts
  intro job' hrow'
  rw [← Option.some.inj (hrow.symm.trans hrow')]
  exact huser

lemma isolated_cancel (jobId : UUID) (reason : Option String) (now : Time)
    (hagree : Agree userId db₁ db₂) (hfresh₁ : Fresh tx db₁) (hfresh₂ : Fresh tx db₂) :
    ∃ out₁ out₂,
      cancel db₁ tx jobId userId reason now = some out₁ ∧
      cancel db₂ tx jobId userId reason now = some out₂ ∧
      Isolated userId db₁ db₂ out₁ out₂ := by
  have hsame : JobRepository.lockForUser db₁ jobId userId =
      JobRepository.lockForUser db₂ jobId userId := hagree.getForUser_eq jobId
  cases hlock : JobRepository.lockForUser db₂ jobId userId with
  | none =>
      have hnone : ∀ db, JobRepository.lockForUser db jobId userId = none →
          cancel db tx jobId userId reason now = some (db, { found := false, status := none }) := by
        intro db hlock
        rw [cancel, hlock]
      exact ⟨_, _, hnone db₁ (hsame.trans hlock), hnone db₂ hlock, isolated_of_read hagree rfl⟩
  | some job =>
      have hlock₁ := hsame.trans hlock
      obtain ⟨db₁', outcome₁, h₁⟩ := exists_cancel jobId userId reason now hfresh₁
      obtain ⟨db₂', outcome₂, h₂⟩ := exists_cancel jobId userId reason now hfresh₂
      obtain ⟨hanswer₁, -, hrecord₁⟩ := cancel_of_lock hlock₁ h₁
      obtain ⟨hanswer₂, -, hrecord₂⟩ := cancel_of_lock hlock h₂
      have hrows : SameRows (db₁.record jobId) (db₂.record jobId) :=
        hagree jobId (Or.inr ⟨job, owned_of_getForUser hlock⟩)
      refine ⟨_, _, h₁, h₂, hanswer₁.trans hanswer₂.symm, ?_, confined_cancel hlock₁ h₁,
        confined_cancel hlock h₂⟩
      exact hagree.update hrecord₁ hrecord₂ hrows.written

/-! ### Submission -/

/-- Nothing refers to a job that does not exist. -/
lemma Constraints.record_of_none {db : Database} (h : Constraints db)
    (hnone : db.jobs.get? jobId = none) : db.record jobId = JobRecord.empty := by
  have hsome : ∀ {i}, (db.jobs.get? i).isSome → ¬ decide (i = jobId) := by
    intro i hi heq
    rw [of_decide_eq_true heq, hnone] at hi
    cases hi
  refine JobRecord.ext hnone ?_ ?_ ?_ ?_
  · exact List.filter_eq_nil_iff.mpr fun a ha => hsome (h.attempts a ha)
  · exact List.filter_eq_nil_iff.mpr fun e he => hsome (h.events e he)
  · exact List.filter_eq_nil_iff.mpr fun o ho => hsome (h.outbox o ho)
  · exact List.filter_eq_nil_iff.mpr fun n hn => hsome (h.notifications n hn)

lemma accepts_of_fresh {db : Database} (hfresh : Fresh tx db) :
    accepts settings db tx args =
      (decide (1 ≤ args.attemptsLimit settings) && (findExisting db args).isNone) := by
  have hjob : JobRepository.get db tx.jobId = none := hfresh.jobId
  simp [accepts, hjob, hfresh.outboxId]

/-- A submission writes the rows of its own job. -/
lemma confined_create {db db' : Database} (huser : args.userId = userId)
    (h : create settings db tx args now = some (db', job)) : Confined userId db db' := by
  obtain ⟨hlimit, rfl, hnone, hrecord⟩ := create_eq_some h
  refine confined_update hrecord ?_ ⟨_, rfl, huser⟩ (jobAttempts_of_create h)
  intro job' hrow
  rw [hnone] at hrow
  cases hrow

/-- The inserts of a submission fail in both databases, or create the same job in both. -/
lemma isolated_create (settings : Settings) (now : Time) (hagree : Agree userId db₁ db₂)
    (hc₁ : Constraints db₁) (hc₂ : Constraints db₂) (hfresh₁ : Fresh tx db₁)
    (hfresh₂ : Fresh tx db₂) (huser : args.userId = userId) :
    (create settings db₁ tx args now = none ∧ create settings db₂ tx args now = none) ∨
      ∃ out₁ out₂, create settings db₁ tx args now = some out₁ ∧
        create settings db₂ tx args now = some out₂ ∧ Isolated userId db₁ db₂ out₁ out₂ := by
  have haccepts : (create settings db₁ tx args now).isSome ↔
      (create settings db₂ tx args now).isSome := by
    rw [create_isSome, create_isSome, accepts_of_fresh hfresh₁, accepts_of_fresh hfresh₂,
      hagree.findExisting_eq hc₁ hc₂ huser]
  cases h₁ : create settings db₁ tx args now with
  | none =>
      refine Or.inl ⟨rfl, Option.not_isSome_iff_eq_none.mp fun hsome => ?_⟩
      rw [h₁] at haccepts
      cases haccepts.mpr hsome
  | some out₁ =>
      obtain ⟨out₂, h₂⟩ := Option.isSome_iff_exists.mp (haccepts.mp (h₁ ▸ rfl))
      obtain ⟨db₁', job₁⟩ := out₁
      obtain ⟨db₂', job₂⟩ := out₂
      refine Or.inr ⟨_, _, rfl, h₂, ?_⟩
      have hconfined₁ := confined_create huser h₁
      have hconfined₂ := confined_create huser h₂
      obtain ⟨hlimit, rfl, -, hrecord₁⟩ := create_eq_some h₁
      obtain ⟨_, rfl, -, hrecord₂⟩ := create_eq_some h₂
      refine ⟨rfl, hagree.update hrecord₁ hrecord₂ ?_, hconfined₁, hconfined₂⟩
      have hempty : db₁.record tx.jobId = db₂.record tx.jobId :=
        (hc₁.record_of_none hfresh₁.jobId).trans (hc₂.record_of_none hfresh₂.jobId).symm
      have hsame : SameRows (db₁.record tx.jobId) (db₂.record tx.jobId) := hempty ▸ .refl _
      exact ⟨rfl, hsame.events.append_right _, hsame.outbox.append_right _, hsame.notifications⟩

/-- A statement of a submission reads the same in both databases and leaves them alone, or it is
the last one. -/
lemma isolated_next (settings : Settings) (now : Time) (hagree : Agree userId db₁ db₂)
    (hc₁ : Constraints db₁) (hc₂ : Constraints db₂) (hfresh₁ : Fresh tx db₁)
    (hfresh₂ : Fresh tx db₂) {call : Submission} (huser : call.args.userId = userId) :
    (call.next settings db₁ tx now = none ∧ call.next settings db₂ tx now = none) ∨
    (∃ phase, call.next settings db₁ tx now = some (db₁, { call with phase }) ∧
      call.next settings db₂ tx now = some (db₂, { call with phase })) ∨
    (∃ out₁ out₂, call.next settings db₁ tx now = some out₁ ∧
      call.next settings db₂ tx now = some out₂ ∧ Isolated userId db₁ db₂ out₁ out₂ ∧
      out₁.2.phase.remaining = 0) := by
  have hfind := hagree.findExisting_eq hc₁ hc₂ huser
  have hcount : JobRepository.countActiveForUser db₁ call.args.userId =
      JobRepository.countActiveForUser db₂ call.args.userId := by
    rw [huser]
    exact hagree.countActiveForUser_eq
  unfold Submission.next
  cases call.phase with
  | lookup =>
      dsimp only
      rw [hfind]
      refine Or.inr (Or.inl ?_)
      cases findExisting db₂ call.args with
      | none => exact ⟨_, rfl, rfl⟩
      | some job => exact ⟨_, rfl, rfl⟩
  | count =>
      dsimp only
      rw [hcount]
      refine Or.inr (Or.inl ?_)
      by_cases hfull : settings.maxInFlightJobsPerUser ≤
          JobRepository.countActiveForUser db₂ call.args.userId
      · exact ⟨_, if_pos hfull, if_pos hfull⟩
      · exact ⟨_, if_neg hfull, if_neg hfull⟩
  | insert now' began =>
      dsimp only
      have hfresh : ∀ {db}, Fresh tx db → Fresh { tx with began } db := fun hfresh =>
        ⟨hfresh.jobId, hfresh.outboxId, hfresh.notificationId⟩
      rcases isolated_create settings now' hagree hc₁ hc₂ (hfresh hfresh₁) (hfresh hfresh₂) huser
        with ⟨h₁, h₂⟩ | ⟨⟨db₁', job₁⟩, ⟨db₂', job₂⟩, h₁, h₂, hisolated⟩
      · rw [h₁, h₂]
        refine Or.inr (Or.inl ?_)
        cases call.args.idempotencyKey with
        | none => exact ⟨_, rfl, rfl⟩
        | some key => exact ⟨_, rfl, rfl⟩
      · rw [h₁, h₂]
        refine Or.inr (Or.inr ⟨_, _, rfl, rfl, ?_, rfl⟩)
        exact hisolated.map fun job => { call with phase := .returned job }
  | fallback =>
      dsimp only
      rw [hfind]
      refine Or.inr (Or.inl ?_)
      cases findExisting db₂ call.args with
      | none => exact ⟨_, rfl, rfl⟩
      | some job => exact ⟨_, rfl, rfl⟩
  | returned | tooManyActiveJobs | integrityError => exact Or.inl ⟨rfl, rfl⟩

/-- A call that has ended stays as it is. -/
lemma runFor_of_ended {db : Database} {call : Submission} (h : call.phase.remaining = 0) (n : ℕ) :
    call.runFor settings tx now n db = (db, call) := by
  cases n with
  | zero => rfl
  | succ n =>
      rw [Submission.runFor, next_eq_none.mpr h]

/-- A submission runs alike on both databases. -/
lemma isolated_runFor (hagree : Agree userId db₁ db₂) (hc₁ : Constraints db₁)
    (hc₂ : Constraints db₂) (hfresh₁ : Fresh tx db₁) (hfresh₂ : Fresh tx db₂) (n : ℕ)
    {call : Submission} (huser : call.args.userId = userId) :
    Isolated userId db₁ db₂ (call.runFor settings tx now n db₁)
      (call.runFor settings tx now n db₂) := by
  induction n generalizing call with
  | zero => exact isolated_of_read hagree rfl
  | succ n ih =>
      unfold Submission.runFor
      rcases isolated_next settings now hagree hc₁ hc₂ hfresh₁ hfresh₂ huser with
        ⟨h₁, h₂⟩ | ⟨phase, h₁, h₂⟩ | ⟨⟨db₁', call₁⟩, ⟨db₂', call₂⟩, h₁, h₂, hisolated, hended⟩
      · rw [h₁, h₂]
        exact isolated_of_read hagree rfl
      · rw [h₁, h₂]
        have hkept : ({ call with phase } : Submission).args.userId = userId := huser
        exact ih hkept
      · obtain rfl : call₁ = call₂ := hisolated.answer
        rw [h₁, h₂]
        dsimp only
        rw [runFor_of_ended hended, runFor_of_ended hended]
        exact hisolated

end Runs

/-! ## The API -/

open Api

section Requests

variable {settings : Settings} {userId : String} {db₁ db₂ : Database} {jobId : UUID} {tx : Tx}
  {now : Time}

lemma isolated_submitJob (hagree : Agree userId db₁ db₂) (hc₁ : Constraints db₁)
    (hc₂ : Constraints db₂) (hfresh₁ : Fresh tx db₁) (hfresh₂ : Fresh tx db₂) (body : JobSubmit)
    (key : Option String) : Isolated userId db₁ db₂
      (submitJob settings db₁ tx now userId body key)
      (submitJob settings db₂ tx now userId body key) := by
  unfold submitJob
  split
  · exact isolated_of_read hagree rfl
  · exact isolated_of_read hagree rfl
  · exact isolated_of_read hagree rfl
  · rename_i args hintake
    have huser : (submit args).args.userId = userId := userId_of_intake hintake
    exact (isolated_runFor hagree hc₁ hc₂ hfresh₁ hfresh₂ _ huser).map
      fun call : Submission => submitted settings call.phase

lemma Agree.listJobs_eq (h : Agree userId db₁ db₂) (query : ListQuery) :
    listJobs db₁ userId query = listJobs db₂ userId query := by
  simp only [listJobs, JobReadService.listJobs, h.listForUser_eq]

lemma Agree.jobSummary_eq (h : Agree userId db₁ db₂) :
    jobSummary db₁ userId = jobSummary db₂ userId := by
  simp only [jobSummary, JobReadService.summary, h.statusCounts_eq]

lemma Agree.getJob_eq (h : Agree userId db₁ db₂) (jobId : UUID) :
    getJob db₁ userId jobId = getJob db₂ userId jobId := by
  simp only [getJob, JobReadService.get, h.getForUser_eq]

lemma isolated_cancelJob (hagree : Agree userId db₁ db₂) (hfresh₁ : Fresh tx db₁)
    (hfresh₂ : Fresh tx db₂) (jobId : UUID) (body : CancelRequest) : Isolated userId db₁ db₂
      (cancelJob db₁ tx now userId jobId body) (cancelJob db₂ tx now userId jobId body) := by
  obtain ⟨⟨db₁', outcome₁⟩, ⟨db₂', outcome₂⟩, h₁, h₂, hisolated⟩ :=
    isolated_cancel jobId body.reason now hagree hfresh₁ hfresh₂
  rw [cancelJob, cancelJob, h₁, h₂]
  exact hisolated.map (cancelled jobId)

lemma Agree.jobEvents_eq (h : Agree userId db₁ db₂) (hc₁ : Constraints db₁) (jobId : UUID) :
    jobEvents db₁ userId jobId = jobEvents db₂ userId jobId := by
  have hevents : JobReadService.events db₁ jobId userId eventsLimit =
      JobReadService.events db₂ jobId userId eventsLimit := by
    unfold JobReadService.events
    cases hjob : JobRepository.getForUser db₁ jobId userId with
    | none => rw [← h.getForUser_eq jobId, hjob]
    | some job =>
        rw [← h.getForUser_eq jobId, hjob, h.listForJob_eq hc₁ ⟨job, owned_of_getForUser hjob⟩]
  rw [jobEvents, jobEvents, hevents]

end Requests

namespace Scenario

/-- The transaction that draws `n` for every id. -/
def drawing (n : Fin (2 ^ 128)) : Tx := ⟨0, ⟨n⟩, ⟨n⟩, ⟨n⟩, fun _ => ⟨n⟩, fun _ => ⟨n⟩⟩

def submission : Request := .submitJob { type := .alwaysFail } none

/-- One job, of `alice`. -/
def alone : Database := (handle {} .empty (drawing 1) 0 (some "alice") submission).1

/-- The same job, and one of `bob`. -/
def beside : Database := (handle {} alone (drawing 2) 0 (some "bob") submission).1

lemma fresh_of_isNone {n : Fin (2 ^ 128)} {db : Database} (hjobs : (db.jobs.get? ⟨n⟩).isNone)
    (houtbox : (db.dispatchOutbox.get? ⟨n⟩).isNone)
    (hnotifications : (db.notificationOutbox.get? ⟨n⟩).isNone) : Fresh (drawing n) db where
  jobId := Option.isNone_iff_eq_none.mp hjobs
  outboxId := Option.isNone_iff_eq_none.mp houtbox
  notificationId _ := Option.isNone_iff_eq_none.mp hnotifications

end Scenario

/-- **The users are isolated from each other.**  Two databases that hold the same rows about the
jobs of a user answer every request of that user alike, whatever else they hold and whichever job,
key or cursor the request names; the databases it leaves hold the same rows about the user again;
and in each of them it writes rows of the user only. -/
theorem tenant_isolation {settings : Settings} {db₁ db₂ : Database} {tx : Tx} {now : Time}
    {xUserId : Option String} (hagree : Agree (currentUserId xUserId) db₁ db₂)
    (hc₁ : Constraints db₁) (hc₂ : Constraints db₂) (hfresh₁ : Fresh tx db₁)
    (hfresh₂ : Fresh tx db₂) (request : Request) :
    Isolated (currentUserId xUserId) db₁ db₂ (handle settings db₁ tx now xUserId request)
      (handle settings db₂ tx now xUserId request) := by
  unfold handle
  cases request with
  | submitJob body key => exact isolated_submitJob hagree hc₁ hc₂ hfresh₁ hfresh₂ body key
  | listJobs query => exact isolated_of_read hagree (hagree.listJobs_eq query)
  | jobSummary => exact isolated_of_read hagree hagree.jobSummary_eq
  | getJob jobId => exact isolated_of_read hagree (hagree.getJob_eq jobId)
  | cancelJob jobId body => exact isolated_cancelJob hagree hfresh₁ hfresh₂ jobId body
  | jobEvents jobId => exact isolated_of_read hagree (hagree.jobEvents_eq hc₁ jobId)

/-- `bob` submits a job, and `alice` asks to cancel it: she is answered as if it did not exist. -/
theorem tenant_isolation_cancel :
    Isolated (currentUserId (some "alice")) Scenario.alone Scenario.beside
      (handle {} Scenario.alone (Scenario.drawing 3) 5 (some "alice") (.cancelJob ⟨2⟩ {}))
      (handle {} Scenario.beside (Scenario.drawing 3) 5 (some "alice") (.cancelJob ⟨2⟩ {})) ∧
    (handle {} Scenario.beside (Scenario.drawing 3) 5 (some "alice")
      (.cancelJob ⟨2⟩ {})).2.statusCode = 404 := by
  have hc₁ : Constraints Scenario.alone := by decide +kernel
  have hc₂ : Constraints Scenario.beside := by decide +kernel
  have hfresh : ∀ n, n = 2 ∨ n = 3 → Fresh (Scenario.drawing n) Scenario.alone := by
    rintro n (rfl | rfl)
    · exact Scenario.fresh_of_isNone (by decide +kernel) (by decide +kernel) (by decide +kernel)
    · exact Scenario.fresh_of_isNone (by decide +kernel) (by decide +kernel) (by decide +kernel)
  have hfresh₂ : Fresh (Scenario.drawing 3) Scenario.beside :=
    Scenario.fresh_of_isNone (by decide +kernel) (by decide +kernel) (by decide +kernel)
  -- the submission of `bob` is confined to his rows, so the two databases agree for `alice`
  have hagree : Agree (currentUserId (some "alice")) Scenario.alone Scenario.beside := by
    have hbob : Isolated (currentUserId (some "bob")) Scenario.alone Scenario.alone
        (handle {} Scenario.alone (Scenario.drawing 2) 0 (some "bob") Scenario.submission)
        (handle {} Scenario.alone (Scenario.drawing 2) 0 (some "bob") Scenario.submission) :=
      tenant_isolation (fun _ _ => .refl _) hc₁ hc₁ (hfresh 2 (Or.inl rfl))
        (hfresh 2 (Or.inl rfl)) _
    exact agree_of_confined hbob.confined₁ (by decide)
  exact ⟨tenant_isolation hagree hc₁ hc₂ (hfresh 3 (Or.inr rfl)) hfresh₂ _, by decide +kernel⟩

end JobOrchestrator
