import JobOrchestrator.Db.Models

/-!
# Column limits

What `String(n)` columns accept.  PostgreSQL refuses a longer value, unless everything beyond the
limit is blanks, which it drops.  The enumerations and identifiers appear here as the texts that
are stored for them.
-/

namespace JobOrchestrator

/-- A value on its way into a `varchar(limit)` column. -/
def varchar (limit : ℕ) (value : String) : Option String :=
  if (value.toList.drop limit).all (· = ' ') then some (String.ofList (value.toList.take limit))
  else none

section Varchar

variable {limit : ℕ} {value stored : String}

lemma varchar_of_length_le (h : value.length ≤ limit) : varchar limit value = some value := by
  have hlength : value.toList.length ≤ limit := by rwa [String.length_toList]
  rw [varchar, List.drop_eq_nil_of_le hlength, List.take_of_length_le hlength]
  simp

lemma length_of_varchar (h : varchar limit value = some stored) : stored.length ≤ limit := by
  unfold varchar at h
  split at h
  · obtain rfl := Option.some.inj h
    rw [String.length_ofList]
    exact List.length_take_le limit value.toList
  · cases h

lemma varchar_replicate {n : ℕ} {c : Char} (hlength : limit < n) (hc : c ≠ ' ') :
    varchar limit (String.ofList (List.replicate n c)) = none := by
  have hlong : n - limit ≠ 0 := by omega
  simp [varchar, hlong, hc]

end Varchar

/-! ## Texts -/

def JobEventType.value : JobEventType → String
  | submitted => "submitted"
  | queued => "queued"
  | started => "started"
  | succeeded => "succeeded"
  | failed => "failed"
  | retryScheduled => "retry_scheduled"
  | cancelRequested => "cancel_requested"
  | cancelled => "cancelled"
  | requeued => "requeued"
  | expired => "expired"

/-- `str(id)`: 32 hexadecimal digits in five groups. -/
def UUID.str (id : UUID) : String :=
  let hex := (List.range 32).map fun i => Nat.digitChar (id.int / 16 ^ (31 - i) % 16)
  String.ofList (hex.take 8 ++ '-' :: (hex.drop 8).take 4 ++ '-' :: (hex.drop 12).take 4 ++
    '-' :: (hex.drop 16).take 4 ++ '-' :: hex.drop 20)

lemma UUID.length_str (id : UUID) : id.str.length = 36 := by
  rw [UUID.str, String.length_ofList]
  simp

def DedupeKey.text (key : DedupeKey) : String := key.jobId.str ++ ":" ++ key.eventType.value

lemma JobEventType.length_value (eventType : JobEventType) : eventType.value.length ≤ 16 := by
  cases eventType <;> decide

lemma DedupeKey.length_text (key : DedupeKey) : key.text.length ≤ 53 := by
  have hvalue := key.eventType.length_value
  have hcolon : (":" : String).length = 1 := rfl
  rw [DedupeKey.text, String.length_append, String.length_append, UUID.length_str, hcolon]
  omega

/-! ## Rows -/

/-- The row that an `INSERT INTO jobs` of a submission stores, if the columns take it. -/
def Job.stored (job : Job) : Option Job :=
  (varchar 64 job.userId).bind fun userId =>
    (job.idempotencyKey.elim (some none) fun key => (varchar 128 key).map some).map
      fun idempotencyKey => { job with userId, idempotencyKey }

lemma stored_of_length_le {job : Job} (huser : job.userId.length ≤ 64)
    (hkey : ∀ key ∈ job.idempotencyKey, key.length ≤ 128) : job.stored = some job := by
  have hkey' : (job.idempotencyKey.elim (some none) fun key => (varchar 128 key).map some) =
      some job.idempotencyKey := by
    cases hcase : job.idempotencyKey with
    | none => rfl
    | some key => simp [varchar_of_length_le (hkey key hcase)]
  rw [Job.stored, varchar_of_length_le huser, hkey']
  rfl

/-- A text without the character `U+0000`, which PostgreSQL does not store. -/
def withoutNul (s : String) : Bool := s.toList.all (· ≠ Char.ofNat 0)

namespace Json

mutual

/-- What a `JSONB` column takes: every number is finite, no text has a `U+0000`. -/
def jsonb : Json → Bool
  | null | bool _ | int _ => true
  | float x => !x.isNan && !x.isInf
  | str s => withoutNul s
  | arr items => jsonbItems items
  | obj fields => jsonbFields fields

def jsonbItems : List Json → Bool
  | [] => true
  | v :: vs => v.jsonb && jsonbItems vs

def jsonbFields : List (String × Json) → Bool
  | [] => true
  | (k, v) :: kvs => withoutNul k && v.jsonb && jsonbFields kvs

end

lemma jsonbFields_append (fields rest : List (String × Json)) :
    jsonbFields (fields ++ rest) = (jsonbFields fields && jsonbFields rest) := by
  induction fields with
  | nil => rfl
  | cons field fields ih => simp [jsonbFields, ih, Bool.and_assoc]

end Json

/-- The columns of `jobs` hold the row as it is.  Its identifiers and its enumerations always fit,
and the user and the key are header values, without a `U+0000`. -/
structure Job.WithinColumns (job : Job) : Prop where
  userId : job.userId.length ≤ 64
  idempotencyKey : ∀ key ∈ job.idempotencyKey, key.length ≤ 128
  maxAttempts : job.maxAttempts ≤ 2 ^ 31 - 1
  payload : (Json.obj job.payload).jsonb

lemma Job.WithinColumns.stored {job : Job} (h : job.WithinColumns) : job.stored = some job :=
  stored_of_length_le h.userId h.idempotencyKey

/-- The columns of `notification_outbox` take the row. -/
def NotificationOutbox.fits (n : NotificationOutbox) : Bool :=
  (varchar 64 n.userId).isSome && (varchar 255 n.destination).isSome &&
    (varchar 40 n.eventType.value).isSome && (varchar 160 n.dedupeKey.text).isSome

lemma userId_of_stored {job row : Job} (h : job.stored = some row) :
    row.userId.length ≤ 64 ∧ row.payload = job.payload := by
  obtain ⟨userId, huser, hrest⟩ := Option.bind_eq_some_iff.mp h
  obtain ⟨key, -, rfl⟩ := Option.map_eq_some_iff.mp hrest
  exact ⟨length_of_varchar huser, rfl⟩

end JobOrchestrator
