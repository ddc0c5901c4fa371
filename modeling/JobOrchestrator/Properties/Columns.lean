import JobOrchestrator.Services.Intake
import JobOrchestrator.Properties.Transitions

/-!
# The terminal notification and its columns

A terminal status is committed together with its notification, so a notification that its
columns refuse keeps the job from ending.  Every column but one is filled with a text of bounded
length; the destination is the webhook of the payload, of any length that the size check of the
payload lets through.
-/

namespace JobOrchestrator

open ExecutionService SubmissionService CancellationService TransitionSystem

section Fits

variable {settings : Settings} {userId : String} {type : JobType} {payload : Dict}
  {priority : JobPriority} {maxAttempts : Option ℕ} {key : Option String} {args : SubmitArgs}
  {db db' : Database} {tx : Tx} {now : Time} {job row later : Job}

/-- Only the destination of a notification can be too long for its column. -/
lemma fits_iff_destination (hlater : later.userId.length ≤ 64) (tx : Tx) (eventType : JobEventType)
    (status : JobStatus) (result : Option Dict) (errorCode errorMessage : Option String)
    (now : Time) :
    (NotificationService.terminalNotification tx later eventType status result errorCode
      errorMessage now).fits ↔ (varchar 255 (NotificationService.target later).2).isSome := by
  have huser : varchar 64 later.userId = some later.userId := varchar_of_length_le hlater
  have hevent : varchar 40 eventType.value = some eventType.value :=
    varchar_of_length_le (eventType.length_value.trans (by decide))
  have hdedupe : ∀ key : DedupeKey, varchar 160 key.text = some key.text := fun key =>
    varchar_of_length_le (key.length_text.trans (by decide))
  simp [NotificationOutbox.fits, NotificationService.terminalNotification, huser, hevent, hdedupe]

/-- Where the notification of an accepted job goes. -/
lemma target_of_intake
    (hintake : intake settings userId type payload priority maxAttempts key = .ok args)
    (hpayload : later.payload = args.payload) :
    NotificationService.target later =
      match payload.get "notify_webhook" with
      | some webhook => if webhook.pyStr ≠ "" then (.webhook, webhook.pyStr)
          else (.log, later.userId)
      | none => (.log, later.userId) := by
  have hwebhook := webhook_of_intake hintake
  rw [← hpayload] at hwebhook
  unfold NotificationService.target
  rw [hwebhook]
  cases payload.get "notify_webhook" with
  | none => rfl
  | some webhook =>
      dsimp only [Option.map_some]
      generalize webhook.pyStr = text
      by_cases hempty : text = "" <;> simp [Json.truthy, Json.pyStr, hempty]

end Fits

/-! ## Two submissions -/

namespace Scenario

def withWebhook (webhook : String) : Dict := [("notify_webhook", .str webhook)]

/-- A webhook one character longer than the destination. -/
def longWebhook : String := String.ofList (List.replicate 256 'x')

/-- A small payload without parameters, as a job that fails once. -/
lemma exists_of_size {payload : Dict} (hplain : payload.get "fail_times" = none)
    (hsize : (Json.obj payload).dumps.utf8ByteSize ≤ 65536) :
    ∃ args db' job row,
      intake {} "user" .flaky payload .normal none none = .ok args ∧
      create {} .empty (tx 1) args 0 = some (db', job) ∧ job.stored = some row := by
  have hnormalized : JobCatalog.normalizePayload payload {} .flaky =
      .ok [("fail_times", .int 1)] := by
    rw [JobCatalog.normalizePayload, JobCatalog.normalizeFlaky, JobCatalog.coerceInt, hplain]
    rfl
  obtain ⟨args, hintake, huser, hattempts, hkey⟩ : ∃ args,
      intake {} "user" .flaky payload .normal none none = .ok args ∧ args.userId = "user" ∧
        args.maxAttempts = none ∧ args.idempotencyKey = none := by
    rw [intake, if_neg (Nat.not_lt.mpr hsize), hnormalized]
    exact ⟨_, rfl, rfl, rfl, rfl⟩
  have haccepts : accepts {} .empty (tx 1) args := by
    have hfresh : (JobRepository.get .empty (tx 1).jobId).isNone &&
        (Database.empty.dispatchOutbox.get? (tx 1).outboxId).isNone := rfl
    simpa [accepts, SubmitArgs.attemptsLimit, findExisting, hattempts, hkey] using hfresh
  obtain ⟨⟨db', job⟩, hcreate⟩ := Option.isSome_iff_exists.mp (create_isSome.mpr haccepts)
  obtain ⟨hlimit, rfl, -, -⟩ := create_eq_some hcreate
  have hstored : (newJob {} args (tx 1).jobId 0 hlimit).stored =
      some (newJob {} args (tx 1).jobId 0 hlimit) := by
    have hlength : args.userId.length ≤ 64 := by
      rw [huser]
      decide
    exact stored_of_length_le hlength (by simp [newJob, hkey])
  exact ⟨_, _, _, _, hintake, hcreate, hstored⟩

/-- The submission with a webhook of plain characters commits, if its payload is not too large. -/
lemma exists_of_plain {webhook : String} (hplain : ∀ c ∈ webhook.toList, Json.dumpChar c = [c])
    (hsize : webhook.utf8ByteSize ≤ 65514) :
    ∃ args db' job row,
      intake {} "user" .flaky (withWebhook webhook) .normal none none = .ok args ∧
      create {} .empty (tx 1) args 0 = some (db', job) ∧ job.stored = some row := by
  have hdumps : (Json.obj (withWebhook webhook)).dumps =
      "\x7b\"notify_webhook\": " ++ Json.dumpString webhook ++ "\x7d" := by
    have hkey : Json.dumpString "notify_webhook" = "\"notify_webhook\"" := by decide +kernel
    apply String.toList_injective
    simp [Json.dumps, Json.dumpFields, withWebhook, hkey]
  have hopen : ("\x7b\"notify_webhook\": ").utf8ByteSize = 19 := by decide +kernel
  have hclose : ("\x7d" : String).utf8ByteSize = 1 := by decide +kernel
  refine exists_of_size rfl ?_
  rw [hdumps, String.utf8ByteSize_append, String.utf8ByteSize_append,
    Json.size_dumpString hplain, hopen, hclose]
  omega

lemma plain_longWebhook : ∀ c ∈ longWebhook.toList, Json.dumpChar c = [c] := by
  have hlist : longWebhook.toList = List.replicate 256 'x' := String.toList_ofList
  intro c hc
  rw [hlist] at hc
  obtain rfl := List.eq_of_mem_replicate hc
  rfl

lemma size_longWebhook : longWebhook.utf8ByteSize ≤ 65514 := by decide +kernel

end Scenario

end JobOrchestrator
