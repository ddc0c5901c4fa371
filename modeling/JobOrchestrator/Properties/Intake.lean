import JobOrchestrator.Properties.Columns

/-!
# What a submission keeps of its payload

The webhook of a payload is read twice: `submit` stores the text of any value under the key, and
the terminal notification tests what is stored.
-/

namespace JobOrchestrator

open ExecutionService SubmissionService

/-! ## The text of a value -/

lemma PyFloat.pyRepr_ne_empty (x : PyFloat) : x.pyRepr ≠ "" := by
  intro h
  unfold PyFloat.pyRepr at h
  dsimp only at h
  split at h
  · simp at h
  split at h
  · simp at h
  split at h
  · simp at h
  split at h
  -- every form has a point or an exponent
  · split at h
    · simp at h
    split at h
    · simp at h
    · simp at h
  · simp at h

/-- Only the empty string has an empty text. -/
lemma Json.pyStr_eq_empty_iff (v : Json) : v.pyStr = "" ↔ v = .str "" := by
  cases v with
  | null => simp [Json.pyStr, Json.pyRepr]
  | bool b => cases b <;> simp [Json.pyStr, Json.pyRepr]
  | int n =>
      have hdigits : n.repr ≠ "" := by
        rw [Int.repr_eq_if]
        split <;> simp
      simp [Json.pyStr, Json.pyRepr, hdigits]
  | float x => simp [Json.pyStr, Json.pyRepr, x.pyRepr_ne_empty]
  | str s => simp [Json.pyStr]
  | arr items => simp [Json.pyStr, Json.pyRepr]
  | obj fields => simp [Json.pyStr, Json.pyRepr]

/-! ## Where the notification goes -/

section Target

variable {settings : Settings} {userId : String} {type : JobType} {payload : Dict}
  {priority : JobPriority} {maxAttempts : Option ℕ} {key : Option String} {args : SubmitArgs}
  {db db' : Database} {tx : Tx} {now : Time} {job row later : Job}

/-- **The target of an accepted job.**  Whatever has become of an accepted job, its notification
goes where the submitted payload says exactly when the payload has no webhook, a truthy one, or
the empty string: any other falsy value is a truthy text once it is stored. -/
theorem target_preserved_iff
    (hintake : intake settings userId type payload priority maxAttempts key = .ok args)
    (hcreate : create settings db tx args now = some (db', job))
    (hstored : job.stored = some row) (hlater : later.request = row.request) :
    NotificationService.target later = NotificationService.target { later with payload } ↔
      ∀ webhook, payload.get "notify_webhook" = some webhook →
        webhook.truthy ∨ webhook = .str "" := by
  obtain ⟨hlimit, rfl, -, -⟩ := create_eq_some hcreate
  have hpayload : later.payload = args.payload :=
    (congrArg JobRequest.payload hlater).trans (userId_of_stored hstored).2
  rw [target_of_intake hintake hpayload, NotificationService.target]
  dsimp only
  cases payload.get "notify_webhook" with
  | none => simp
  | some webhook =>
      simp only [Option.some.injEq, forall_eq']
      by_cases hempty : webhook = .str ""
      · subst hempty
        simp [Json.truthy, Json.pyStr]
      · -- the stored text is not empty, so the stored rule always chooses the webhook
        have htext : webhook.pyStr ≠ "" := mt webhook.pyStr_eq_empty_iff.mp hempty
        rw [if_pos htext]
        by_cases htruthy : webhook.truthy
        · simp [htruthy]
        · simp [htruthy, hempty]

end Target

/-- A job with a webhook keeps it. -/
theorem target_preserved_iff_webhook :
    ∃ (args : SubmitArgs) (db' : Database) (job row : Job),
      intake {} "user" .flaky (Scenario.withWebhook "https://example.com/hook") .normal none none
        = .ok args ∧
      create {} .empty (Scenario.tx 1) args 0 = some (db', job) ∧ job.stored = some row ∧
      NotificationService.target row = NotificationService.target
        { row with payload := Scenario.withWebhook "https://example.com/hook" } := by
  have hplain : ("https://example.com/hook".toList.all fun c => Json.dumpChar c == [c]) := by
    decide +kernel
  obtain ⟨args, db', job, row, hintake, hcreate, hstored⟩ :=
    @Scenario.exists_of_plain "https://example.com/hook"
      (fun c hc => eq_of_beq (List.all_eq_true.mp hplain c hc)) (by decide +kernel)
  refine ⟨args, db', job, row, hintake, hcreate, hstored, ?_⟩
  refine (target_preserved_iff hintake hcreate hstored rfl).mpr ?_
  intro webhook hwebhook
  obtain rfl : Json.str "https://example.com/hook" = webhook := Option.some.inj hwebhook
  exact Or.inl rfl

/-- A webhook of `null` asks for no webhook, and the notification goes to the webhook `None`. -/
theorem target_of_null :
    ∃ (args : SubmitArgs) (db' : Database) (job row : Job),
      intake {} "user" .flaky [("notify_webhook", .null)] .normal none none = .ok args ∧
      create {} .empty (Scenario.tx 1) args 0 = some (db', job) ∧ job.stored = some row ∧
      NotificationService.target row = (.webhook, "None") ∧
      NotificationService.target { row with payload := [("notify_webhook", .null)] } =
        (.log, row.userId) := by
  obtain ⟨args, db', job, row, hintake, hcreate, hstored⟩ :=
    @Scenario.exists_of_size [("notify_webhook", .null)] rfl (by decide +kernel)
  obtain ⟨hlimit, rfl, -, -⟩ := create_eq_some hcreate
  refine ⟨_, _, _, _, hintake, hcreate, hstored, ?_, rfl⟩
  rw [target_of_intake hintake (userId_of_stored hstored).2]
  rfl

end JobOrchestrator
