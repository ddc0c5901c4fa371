import JobOrchestrator.Services.Cancellation
import JobOrchestrator.Services.Intake
import JobOrchestrator.Services.JobRead

/-!
# The routes of `/jobs`

`app/api/routes/jobs.py`, with the request and response schemas that only the routes use.  A
`Request` is a request that has passed its validation, so the bounds of the query and body
parameters are fields.  `handle` answers one request, with no other transaction in between; an
exception that no route catches is the 500 of the framework.
-/

namespace JobOrchestrator

namespace Api

/-! ## Schemas -/

structure JobSubmit where
  type : JobType
  payload : Dict := []
  priority : JobPriority := .normal
  maxAttempts : Option ℕ := none
  maxAttempts_ge : ∀ n ∈ maxAttempts, 1 ≤ n := by simp

structure JobAccepted where
  jobId : UUID
  status : JobStatus
  statusUrl : String

structure CancelRequest where
  reason : Option String := none

structure CancelResult where
  jobId : UUID
  status : JobStatus

/-- The query parameters of `list_jobs`. -/
structure ListQuery where
  status : Option JobStatus := none
  type : Option JobType := none
  limit : ℕ := 50
  cursor : Option String := none
  limit_ge : 1 ≤ limit := by decide
  limit_le : limit ≤ 200 := by decide

inductive Request
  | submitJob (body : JobSubmit) (idempotencyKey : Option String)
  | listJobs (query : ListQuery)
  | jobSummary
  | getJob (jobId : UUID)
  | cancelJob (jobId : UUID) (body : CancelRequest)
  | jobEvents (jobId : UUID)

/-- The body of a response; `message` is an `ErrorResponse`. -/
inductive Body
  | jobAccepted (accepted : JobAccepted)
  | jobs (page : PaginatedResponse JobSummary)
  | jobSummary (counts : JobSummaryCounts)
  | job (job : JobRead)
  | cancelResult (result : CancelResult)
  | jobEvents (items : List JobEventRead)
  | message (message : String)
  | internalServerError

structure Response where
  statusCode : ℕ
  body : Body

/-- `HTTPException`, as `http_exception_handler` renders it. -/
def httpException (statusCode : ℕ) (detail : String) : Response := ⟨statusCode, .message detail⟩

/-- What an exception that reaches the framework becomes. -/
def internalServerError : Response := ⟨500, .internalServerError⟩

/-! ## Routes -/

def defaultUserId : String := "demo-user"

/-- `current_user_id`; an empty header counts as none. -/
def currentUserId (xUserId : Option String) : String :=
  (xUserId.filter (· ≠ "")).getD defaultUserId

def eventsLimit : ℕ := 200

section Routes

variable (settings : Settings) (db : Database) (tx : Tx) (now : Time) (userId : String)

/-- What `submit_job` makes of the end of the call. -/
def submitted : SubmissionService.Phase → Response
  | .returned job => ⟨202, .jobAccepted
      { jobId := job.id, status := job.status, statusUrl := "/jobs/" ++ job.id.str }⟩
  | .tooManyActiveJobs => httpException 429
      ("too many active jobs for this user, the limit is " ++
        toString settings.maxInFlightJobsPerUser)
  | _ => internalServerError

def submitJob (body : JobSubmit) (idempotencyKey : Option String) : Database × Response :=
  match SubmissionService.intake settings userId body.type body.payload body.priority
      body.maxAttempts idempotencyKey with
  | .error .payloadTooLarge =>
      (db, httpException 413 "payload exceeds the maximum allowed size")
  | .error (.payload (.valueError message)) => (db, httpException 422 message)
  | .error (.payload .overflowError) => (db, internalServerError)
  | .ok args =>
      let (db, call) := (SubmissionService.submit args).run settings db tx now
      (db, submitted settings call.phase)

def listJobs (query : ListQuery) : Response :=
  match JobReadService.listJobs db userId query.status query.type query.cursor query.limit with
  | .ok page => ⟨200, .jobs page⟩
  | .error .invalidCursor => httpException 400 "invalid cursor"
  | .error .overflow => internalServerError

def jobSummary : Response := ⟨200, .jobSummary (JobReadService.summary db userId)⟩

def getJob (jobId : UUID) : Response :=
  match JobReadService.get db jobId userId with
  | none => httpException 404 "job not found"
  | some job => ⟨200, .job job⟩

/-- What `cancel_job` makes of the outcome. -/
def cancelled (jobId : UUID) (outcome : CancellationService.CancelOutcome) : Response :=
  if !outcome.found then httpException 404 "job not found"
  else
    match outcome.status with
    | none => conflict
    | some status =>
        if outcome.conflict then conflict
        else ⟨if status = .cancelling then 202 else 200, .cancelResult { jobId, status }⟩
where
  conflict : Response :=
    httpException 409 "the job has already reached a terminal state and cannot be cancelled"

def cancelJob (jobId : UUID) (body : CancelRequest) : Database × Response :=
  match CancellationService.cancel db tx jobId userId body.reason now with
  | none => (db, internalServerError)
  | some (db, outcome) => (db, cancelled jobId outcome)

def jobEvents (jobId : UUID) : Response :=
  match JobReadService.events db jobId userId eventsLimit with
  | none => httpException 404 "job not found"
  | some items => ⟨200, .jobEvents items⟩

end Routes

/-- Answer a request with the given `X-User-Id` header. -/
def handle (settings : Settings) (db : Database) (tx : Tx) (now : Time) (xUserId : Option String)
    (request : Request) : Database × Response :=
  let userId := currentUserId xUserId
  match request with
  | .submitJob body idempotencyKey => submitJob settings db tx now userId body idempotencyKey
  | .listJobs query => (db, listJobs db userId query)
  | .jobSummary => (db, jobSummary db userId)
  | .getJob jobId => (db, getJob db userId jobId)
  | .cancelJob jobId body => cancelJob db tx now userId jobId body
  | .jobEvents jobId => (db, jobEvents db userId jobId)

/-- A submission that runs alone is answered by what it came to, never left in the middle. -/
theorem submission_ends (settings : Settings) (db db' : Database) (tx : Tx) (now : Time)
    (args : SubmissionService.SubmitArgs) :
    ((SubmissionService.submit args).run settings db tx now).2.next settings db' tx now = none :=
  SubmissionService.next_eq_none.mpr (SubmissionService.remaining_runFor le_rfl)

end Api

end JobOrchestrator
