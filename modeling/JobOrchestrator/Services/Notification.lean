import JobOrchestrator.Repositories.Outboxes

/-!
# Notifications

`app/services/notification_service.py`: the row that announces a terminal status, inserted
in the transaction that makes the job terminal, and the sweep that delivers the due rows.

A sweep holds all of its deliveries in one database transaction.  What a delivery does in
the outside world is an input (`Delivery`); an exception that is not an `httpx.HTTPError`
leaves `_attempt` and aborts the sweep, which is `none` here.
-/

namespace JobOrchestrator

namespace NotificationService

/-- The channel and destination that `enqueue_terminal_notification` chooses. -/
def target (job : Job) : NotificationChannel × String :=
  match Dict.get job.payload "notify_webhook" with
  | some webhook => if webhook.truthy then (.webhook, webhook.pyStr) else (.log, job.userId)
  | none => (.log, job.userId)

/-- The row that `enqueue_terminal_notification` offers to the outbox. -/
def terminalNotification (tx : Tx) (job : Job) (eventType : JobEventType) (status : JobStatus)
    (result : Option Dict) (errorCode errorMessage : Option String) (now : Time) :
    NotificationOutbox where
  id := tx.notificationId job.id
  jobId := job.id
  userId := job.userId
  channel := (target job).1
  destination := (target job).2
  eventType := eventType
  payload := ⟨job.id, job.type, status, eventType, result, errorCode, errorMessage⟩
  status := .pending
  attempts := 0
  nextAttemptAt := now
  dedupeKey := ⟨job.id, eventType⟩
  lastError := none
  createdAt := tx.began
  sentAt := none
  dedupeKey_eq := rfl

def enqueueTerminalNotification (db : Database) (tx : Tx) (job : Job) (eventType : JobEventType)
    (status : JobStatus) (result : Option Dict) (errorCode errorMessage : Option String)
    (now : Time) : Option Database :=
  (NotificationOutboxRepository.enqueue db
    (terminalNotification tx job eventType status result errorCode errorMessage now)).map (·.1)

lemma record_enqueueTerminalNotification {db db' : Database} {tx : Tx} {job : Job}
    {eventType : JobEventType} {status : JobStatus} {result : Option Dict}
    {errorCode errorMessage : Option String} {now : Time}
    (h : enqueueTerminalNotification db tx job eventType status result errorCode errorMessage now
      = some db') :
    db'.record = Function.update db.record job.id ((db.record job.id).enqueue
      (terminalNotification tx job eventType status result errorCode errorMessage now)) := by
  obtain ⟨⟨d, inserted⟩, hd, rfl⟩ := Option.map_eq_some_iff.mp h
  exact NotificationOutboxRepository.record_enqueue hd

lemma jobAttempts_of_enqueueTerminalNotification {db db' : Database} {tx : Tx} {job : Job}
    {eventType : JobEventType} {status : JobStatus} {result : Option Dict}
    {errorCode errorMessage : Option String} {now : Time}
    (h : enqueueTerminalNotification db tx job eventType status result errorCode errorMessage now
      = some db') : db'.jobAttempts = db.jobAttempts := by
  obtain ⟨⟨d, inserted⟩, hd, rfl⟩ := Option.map_eq_some_iff.mp h
  unfold NotificationOutboxRepository.enqueue at hd
  split at hd
  · obtain ⟨rfl, -⟩ := Prod.mk.inj (Option.some.inj hd)
    rfl
  · obtain ⟨t, -, heq⟩ := Option.map_eq_some_iff.mp hd
    obtain ⟨rfl, -⟩ := Prod.mk.inj heq
    rfl

/-! ## Delivery -/

/-- How `_deliver` ends for one notification. -/
inductive Delivery
  | delivered
  | httpError (message : String)
  | raised
  deriving DecidableEq

/-- What the delivery sweep draws from outside, by notification: how the delivery ends, the
clock reading behind the row it writes, and the backoff computed for a failure. -/
structure DeliveryInputs where
  outcome : UUID → Delivery
  now : UUID → Time
  backoff : UUID → Time

/-- `_on_failure` -/
def onFailure (settings : Settings) (io : DeliveryInputs) (db : Database)
    (n : NotificationOutbox) (message : String) : Database :=
  if settings.notificationMaxAttempts ≤ n.attempts + 1 then
    NotificationOutboxRepository.markFailed db n.id message
  else
    NotificationOutboxRepository.reschedule db n.id (io.now n.id + io.backoff n.id) message

/-- `_attempt` -/
def attempt (settings : Settings) (io : DeliveryInputs) (db : Database)
    (n : NotificationOutbox) : Option Database :=
  match io.outcome n.id with
  | .delivered => some (NotificationOutboxRepository.markSent db n.id (io.now n.id))
  | .httpError message => some (onFailure settings io db n message)
  | .raised => none

/-- `dispatch_due` -/
def dispatchDue (settings : Settings) (io : DeliveryInputs) (db : Database) (locked : List UUID)
    (batchSize : ℕ) (now : Time) : Option Database :=
  (NotificationOutboxRepository.claimDue db locked now batchSize).foldlM (attempt settings io) db

/-- The columns of a notification that a delivery does not write. -/
structure Announcement where
  id : UUID
  jobId : UUID
  userId : String
  channel : NotificationChannel
  destination : String
  eventType : JobEventType
  payload : NotificationPayload
  dedupeKey : DedupeKey
  createdAt : Time

def announcement (n : NotificationOutbox) : Announcement :=
  ⟨n.id, n.jobId, n.userId, n.channel, n.destination, n.eventType, n.payload, n.dedupeKey,
    n.createdAt⟩

/-- The records agree up to the delivery state of the notifications. -/
def SameAnnouncements (r r' : JobRecord) : Prop :=
  r' = { r with notifications := r'.notifications } ∧
    r'.notifications.map announcement = r.notifications.map announcement

lemma SameAnnouncements.refl (r : JobRecord) : SameAnnouncements r r := ⟨rfl, rfl⟩

lemma SameAnnouncements.trans {r r' r'' : JobRecord} (h : SameAnnouncements r r')
    (h' : SameAnnouncements r' r'') : SameAnnouncements r r'' := by
  refine ⟨?_, h'.2.trans h.2⟩
  rw [h'.1, h.1]

/-- Rewriting the delivery columns of one row keeps all announcements. -/
lemma sameAnnouncements_updateById (db : Database) (id : UUID)
    (values : NotificationOutbox → NotificationOutbox) (hid : ∀ n, (values n).id = n.id)
    (hvalues : ∀ n, announcement (values n) = announcement n) (i : UUID) :
    SameAnnouncements (db.record i)
      ((NotificationOutboxRepository.updateById db id values hid).record i) := by
  have hjob : ∀ n, (values n).jobId = n.jobId := fun n => congrArg Announcement.jobId (hvalues n)
  refine ⟨rfl, ?_⟩
  have hrows := Table.rowsWhere_update db.notificationOutbox
    (fun n => decide (n.id = id) && true) (fun n => decide (n.jobId = i)) values hid
    fun n => by rw [hjob]
  refine (congrArg (List.map announcement) hrows).trans ?_
  rw [List.map_map]
  refine List.map_congr_left fun n _ => ?_
  by_cases hn : n.id = id <;> simp [hn, hvalues]

lemma sameAnnouncements_attempt {settings : Settings} {io : DeliveryInputs} {db db' : Database}
    {n : NotificationOutbox} (h : attempt settings io db n = some db') (i : UUID) :
    SameAnnouncements (db.record i) (db'.record i) := by
  unfold attempt at h
  split at h
  · obtain rfl := Option.some.inj h
    exact sameAnnouncements_updateById db n.id (NotificationOutboxRepository.sent (io.now n.id))
      (fun _ => rfl) (fun _ => rfl) i
  · rename_i message _
    obtain rfl := Option.some.inj h
    unfold onFailure
    split
    · exact sameAnnouncements_updateById db n.id (NotificationOutboxRepository.failed message)
        (fun _ => rfl) (fun _ => rfl) i
    · exact sameAnnouncements_updateById db n.id
        (NotificationOutboxRepository.rescheduled (io.now n.id + io.backoff n.id) message)
        (fun _ => rfl) (fun _ => rfl) i
  · cases h

/-- A delivery sweep writes delivery columns of notifications and nothing else. -/
theorem sameAnnouncements_dispatchDue {settings : Settings} {io : DeliveryInputs}
    {db db' : Database} {locked : List UUID} {batchSize : ℕ} {now : Time}
    (h : dispatchDue settings io db locked batchSize now = some db') (i : UUID) :
    SameAnnouncements (db.record i) (db'.record i) := by
  unfold dispatchDue at h
  generalize NotificationOutboxRepository.claimDue db locked now batchSize = due at h
  induction due generalizing db with
  | nil =>
      obtain rfl : db = db' := by simpa using h
      exact SameAnnouncements.refl _
  | cons n due ih =>
      rw [List.foldlM_cons] at h
      obtain ⟨t, ht, hrest⟩ := Option.bind_eq_some_iff.mp h
      exact (sameAnnouncements_attempt ht i).trans (ih hrest)

/-! ## What a delivery sweep leaves behind -/

/-- The notifications that the loop of `dispatch_due` delivers before it ends or raises. -/
def deliveries (io : DeliveryInputs) : List NotificationOutbox → List UUID
  | [] => []
  | n :: due =>
      match io.outcome n.id with
      | .delivered => n.id :: deliveries io due
      | .httpError _ => deliveries io due
      | .raised => []

/-- What `_attempt` writes into the row of the notification `n`. -/
def written (settings : Settings) (io : DeliveryInputs) (n : NotificationOutbox) :
    NotificationOutbox → NotificationOutbox :=
  match io.outcome n.id with
  | .delivered => NotificationOutboxRepository.sent (io.now n.id)
  | .httpError message =>
      if settings.notificationMaxAttempts ≤ n.attempts + 1 then
        NotificationOutboxRepository.failed message
      else NotificationOutboxRepository.rescheduled (io.now n.id + io.backoff n.id) message
  | .raised => id

section Deliveries

variable {settings : Settings} {io : DeliveryInputs} {db db' : Database} {n : NotificationOutbox}
  {due : List NotificationOutbox} {locked : List UUID} {batchSize : ℕ} {now : Time} {id : UUID}

lemma deliveries_sublist : (deliveries io due).Sublist (due.map NotificationOutbox.id) := by
  induction due with
  | nil => exact List.Sublist.slnil
  | cons n due ih =>
      unfold deliveries
      rw [List.map_cons]
      split
      · exact ih.cons_cons n.id
      · exact ih.cons n.id
      · exact List.nil_sublist _

lemma delivered_of_mem_deliveries (h : id ∈ deliveries io due) : io.outcome id = .delivered := by
  induction due with
  | nil => cases h
  | cons n due ih =>
      unfold deliveries at h
      split at h
      · rename_i hdelivered
        rcases List.mem_cons.mp h with rfl | h
        · exact hdelivered
        · exact ih h
      · exact ih h
      · cases h

lemma deliveries_of_raised (h : ∀ n ∈ due, io.outcome n.id = .raised) : deliveries io due = [] := by
  cases due with
  | nil => rfl
  | cons n due =>
      have hraised : io.outcome n.id = .raised := h n List.mem_cons_self
      rw [deliveries, hraised]

lemma written_eq_self : written settings io n n = n ↔ io.outcome n.id = .raised := by
  have hchanged : ∀ m : NotificationOutbox, m.attempts = n.attempts + 1 → m ≠ n := by
    rintro m hattempts rfl
    omega
  cases houtcome : io.outcome n.id with
  | delivered =>
      have hwritten := hchanged (NotificationOutboxRepository.sent (io.now n.id) n) rfl
      simpa [written, houtcome] using hwritten
  | httpError message =>
      by_cases hexhausted : settings.notificationMaxAttempts ≤ n.attempts + 1
      · have hwritten := hchanged (NotificationOutboxRepository.failed message n) rfl
        simpa [written, houtcome, hexhausted] using hwritten
      · have hwritten := hchanged (NotificationOutboxRepository.rescheduled
          (io.now n.id + io.backoff n.id) message n) rfl
        simpa [written, houtcome, hexhausted] using hwritten
  | raised => simp [written, houtcome]

lemma attempt_isSome : (attempt settings io db n).isSome ↔ io.outcome n.id ≠ .raised := by
  unfold attempt
  split <;> simp [*]

/-- An attempt writes the row of its notification and no other. -/
lemma rows_of_attempt (h : attempt settings io db n = some db') :
    db'.notificationOutbox.get? = Function.update db.notificationOutbox.get? n.id
      ((db.notificationOutbox.get? n.id).map (written settings io n)) := by
  have hupdate : ∀ (values : NotificationOutbox → NotificationOutbox) hid,
      (NotificationOutboxRepository.updateById db n.id values hid).notificationOutbox.get? =
        Function.update db.notificationOutbox.get? n.id
          ((db.notificationOutbox.get? n.id).map values) :=
    fun values hid => Table.get?_updateAt _ _ _ values hid
  cases houtcome : io.outcome n.id with
  | delivered =>
      rw [attempt, houtcome] at h
      obtain rfl := Option.some.inj h
      rw [written, houtcome]
      exact hupdate _ _
  | httpError message =>
      rw [attempt, houtcome] at h
      obtain rfl := Option.some.inj h
      rw [written, houtcome]
      by_cases hexhausted : settings.notificationMaxAttempts ≤ n.attempts + 1
      · simp only [onFailure, if_pos hexhausted]
        exact hupdate _ _
      · simp only [onFailure, if_neg hexhausted]
        exact hupdate _ _
  | raised =>
      rw [attempt, houtcome] at h
      cases h

/-- A delivery sweep commits unless a delivery raises. -/
lemma dispatchDue_isSome : (dispatchDue settings io db locked batchSize now).isSome ↔
    ∀ n ∈ NotificationOutboxRepository.claimDue db locked now batchSize,
      io.outcome n.id ≠ .raised := by
  have hattempt : ∀ db n, (attempt settings io db n).isSome ↔ io.outcome n.id ≠ .raised :=
    fun _ _ => attempt_isSome
  exact Table.foldlM_isSome_iff hattempt

/-- A sweep that commits writes every claimed row by its own outcome, and no other row. -/
lemma rows_of_dispatchDue (h : dispatchDue settings io db locked batchSize now = some db') :
    (∀ id, id ∉ (NotificationOutboxRepository.claimDue db locked now batchSize).map
        NotificationOutbox.id → db'.notificationOutbox.get? id = db.notificationOutbox.get? id) ∧
      ∀ n ∈ NotificationOutboxRepository.claimDue db locked now batchSize,
        db'.notificationOutbox.get? n.id = some (written settings io n n) := by
  obtain ⟨hother, hclaimed⟩ := Table.foldlM_pointwise
    (fun db : Database => db.notificationOutbox.get?) (fun _ _ => True)
    (f := fun n row => row.map (written settings io n))
    (fun _ _ _ hattempt _ => rows_of_attempt hattempt) (fun _ _ _ _ _ _ _ => trivial)
    Table.nodup_select (fun _ _ => trivial) h
  refine ⟨hother, ?_⟩
  intro n hn
  have hrow : db.notificationOutbox.get? n.id = some n := Table.get?_of_mem_select hn
  rw [hclaimed n hn, hrow, Option.map_some]

end Deliveries

end NotificationService

end JobOrchestrator
