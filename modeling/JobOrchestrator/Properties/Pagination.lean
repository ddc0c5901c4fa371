import JobOrchestrator.Properties.Idempotency
import JobOrchestrator.Services.JobRead

/-!
# Pagination

A client lists the jobs of a user page by page: each request continues after the last row of the
page before.  Between two requests jobs are inserted and change their status, but no job leaves the
table and none changes its place in the order, so that every job that was there at the start is
still found.
-/

namespace JobOrchestrator

open JobReadService TransitionSystem

/-- The table some time later: every job is still there, with all that was submitted. -/
def Later (db db' : Database) : Prop :=
  ∀ job ∈ db.jobs.rows, ∃ job' ∈ db'.jobs.rows, job'.request = job.request

/-- The times of the jobs are times that Python has. -/
def Dated (db : Database) : Prop := ∀ job ∈ db.jobs.rows, (Datetime.utc job.createdAt).isSome

/-- The rows that a listing without a status filter is about. -/
def Matches (userId : String) (jobType : Option JobType) (job : Job) : Bool :=
  job.userId = userId && jobType.all fun jobType => job.type = jobType

/-- The place of an item of a page. -/
def JobSummary.position (item : JobSummary) : Time ×ₗ Fin (2 ^ 128) :=
  toLex (item.createdAt, item.jobId.int)

/-- Follow the cursors from the `i`-th request on, the `i`-th request reading `db i`; `none` when
so many requests do not reach the end. -/
def follow (db : ℕ → Database) (userId : String) (jobType : Option JobType) (limit : ℕ) :
    ℕ → ℕ → Option String → Option (List (PaginatedResponse JobSummary))
  | 0, _, _ => none
  | n + 1, i, cursor =>
      match listJobs (db i) userId none jobType cursor limit with
      | .error _ => none
      | .ok page =>
          if page.hasMore then
            (follow db userId jobType limit n (i + 1) page.nextCursor).map (page :: ·)
          else some [page]

/-- Whatever the system does between two requests, the table is a later one. -/
theorem later_of_steps {settings : Settings} {s s' : System settings.workerConcurrency}
    (h : (orchestrator settings).Reachable Always s)
    (hsteps : (orchestrator settings).Steps Always s s') : Later s.db s'.db :=
  fun _ hjob => request_of_steps h hsteps hjob

/-! ## One request -/

section Request

variable {db : Database} {userId : String} {jobType : Option JobType} {limit : ℕ}
  {after : Option (Time ×ₗ Fin (2 ^ 128))}

/-- The rows after a place, in the order of the listing. -/
def rowsAfter (db : Database) (userId : String) (jobType : Option JobType)
    (after : Option (Time ×ₗ Fin (2 ^ 128))) : List Job :=
  descending JobRepository.position (db.jobs.rows.filter fun job =>
    Matches userId jobType job && after.all fun after => JobRepository.position job < after)

lemma mem_rowsAfter {job : Job} : job ∈ rowsAfter db userId jobType after ↔
    job ∈ db.jobs.rows ∧ Matches userId jobType job ∧
      ∀ key, after = some key → JobRepository.position job < key := by
  rw [rowsAfter, mem_descending, List.mem_filter, Bool.and_eq_true]
  cases after <;> simp

lemma listForUser_eq : JobRepository.listForUser db userId none jobType after (limit + 1) =
    (rowsAfter db userId jobType after).take (limit + 1) := by
  simp only [JobRepository.listForUser, rowsAfter, Matches, Option.all_none, Bool.and_true]

/-- No two rows have one place. -/
lemma nodup_position : (db.jobs.rows.map JobRepository.position).Nodup := by
  refine List.Nodup.of_map (fun key : Time ×ₗ Fin (2 ^ 128) => (⟨(ofLex key).2⟩ : UUID)) ?_
  rw [List.map_map]
  exact db.jobs.nodup

lemma pairwise_rowsAfter : (rowsAfter db userId jobType after).Pairwise fun job job' =>
    JobRepository.position job' < JobRepository.position job :=
  pairwise_descending_lt ((List.filter_sublist.map _).nodup nodup_position)

/-- A cursor that the service has issued is understood. -/
lemma startAfter_cursorAt {job : Job} {cursor : String} (h : cursorAt job = .ok cursor) :
    startAfter (some cursor) = .ok (some (JobRepository.position job)) := by
  unfold cursorAt at h
  split at h
  · cases h
  · rename_i createdAt hutc
    obtain rfl := Except.ok.inj h
    have hdecode := decodeCursor_encodeCursor ⟨createdAt, job.id⟩
    have hne : encodeCursor ⟨createdAt, job.id⟩ ≠ "" := by
      intro hempty
      rw [hempty] at hdecode
      cases hdecode
    have hinstant : createdAt.instant = job.createdAt := Datetime.instant_of_utc hutc
    have hutc' : (Datetime.utc createdAt.instant).isSome := by
      rw [hinstant, hutc]
      rfl
    rw [startAfter, Option.filter_some, if_pos (decide_eq_true hne)]
    dsimp only
    rw [hdecode]
    dsimp only
    rw [if_pos hutc', hinstant]
    rfl

/-- The answer to one request. -/
structure Answers (db : Database) (userId : String) (jobType : Option JobType) (limit : ℕ)
    (after : Option (Time ×ₗ Fin (2 ^ 128))) (page : PaginatedResponse JobSummary) : Prop where
  items : page.items = ((rowsAfter db userId jobType after).take limit).map .validate
  hasMore : page.hasMore = true ↔ limit < (rowsAfter db userId jobType after).length
  next : page.hasMore = true → ∃ last cursor,
    ((rowsAfter db userId jobType after).take limit).getLast? = some last ∧
      page.nextCursor = some cursor ∧
        startAfter (some cursor) = .ok (some (JobRepository.position last))
  final : page.hasMore = false → page.nextCursor = none

lemma exists_answers (hdated : Dated db) (hlimit : 1 ≤ limit) {cursor : Option String}
    (hcursor : startAfter cursor = .ok after) :
    ∃ page, listJobs db userId none jobType cursor limit = .ok page ∧
      Answers db userId jobType limit after page := by
  let rows := rowsAfter db userId jobType after
  have hlong : limit < (rows.take (limit + 1)).length ↔ limit < rows.length := by
    rw [List.length_take]
    omega
  have hpage : (rows.take (limit + 1)).take limit = rows.take limit := by
    rw [List.take_take, min_eq_left (Nat.le_succ limit)]
  rw [listJobs, hcursor]
  change ∃ page, (let found := JobRepository.listForUser db userId none jobType after (limit + 1)
    (nextCursor (found.take limit) (limit < found.length)).map fun nextCursor =>
      (⟨(found.take limit).map .validate, nextCursor, limit < found.length⟩ :
        PaginatedResponse JobSummary)) = .ok page ∧ _
  rw [listForUser_eq]
  change ∃ page, ((nextCursor ((rows.take (limit + 1)).take limit) _).map _) = .ok page ∧ _
  rw [hpage]
  by_cases hmore : limit < rows.length
  · have hne : rows.take limit ≠ [] := by
      rw [ne_eq, List.take_eq_nil_iff]
      rintro (hzero | hnil)
      · omega
      · rw [hnil] at hmore
        cases hmore
    let last := (rows.take limit).getLast hne
    have hlast : (rows.take limit).getLast? = some last := List.getLast?_eq_some_getLast hne
    have hmem : last ∈ db.jobs.rows :=
      (mem_rowsAfter.mp (List.mem_of_mem_take (List.getLast_mem hne))).1
    obtain ⟨createdAt, hutc⟩ := Option.isSome_iff_exists.mp (hdated last hmem)
    have hcursorAt : cursorAt last = .ok (encodeCursor ⟨createdAt, last.id⟩) := by
      rw [cursorAt, hutc]
    have htrue : decide (limit < (rows.take (limit + 1)).length) = true :=
      decide_eq_true (hlong.mpr hmore)
    rw [nextCursor, hlast, htrue]
    dsimp only
    rw [if_pos rfl, hcursorAt]
    exact ⟨_, rfl, rfl, iff_of_true rfl hmore,
      fun _ => ⟨last, _, hlast, rfl, startAfter_cursorAt hcursorAt⟩, nofun⟩
  · have hfalse : decide (limit < (rows.take (limit + 1)).length) = false :=
      decide_eq_false (mt hlong.mp hmore)
    have hnone : nextCursor (rows.take limit) false = .ok none := by
      unfold nextCursor
      split <;> rfl
    rw [hfalse, hnone]
    exact ⟨_, rfl, rfl, iff_of_false nofun hmore, nofun, fun _ => rfl⟩

namespace Answers

variable {page : PaginatedResponse JobSummary}

lemma row_of_item (h : Answers db userId jobType limit after page) {item : JobSummary}
    (hitem : item ∈ page.items) : ∃ job ∈ db.jobs.rows, Matches userId jobType job ∧
      (∀ key, after = some key → JobRepository.position job < key) ∧ item = .validate job := by
  rw [h.items] at hitem
  obtain ⟨job, hjob, rfl⟩ := List.mem_map.mp hitem
  obtain ⟨hmem, hmatches, hafter⟩ := mem_rowsAfter.mp (List.mem_of_mem_take hjob)
  exact ⟨job, hmem, hmatches, hafter, rfl⟩

lemma descending (h : Answers db userId jobType limit after page) :
    page.items.Pairwise fun item item' => item'.position < item.position := by
  rw [h.items]
  exact List.pairwise_map.mpr (pairwise_rowsAfter.sublist (List.take_sublist ..))

lemma distinct (h : Answers db userId jobType limit after page) :
    (page.items.map JobSummary.jobId).Nodup := by
  have hsub : ((rowsAfter db userId jobType after).map Job.id).Nodup :=
    (descending_perm.map Job.id).nodup_iff.mpr ((List.filter_sublist.map _).nodup db.jobs.nodup)
  rw [h.items, List.map_map]
  exact ((List.take_sublist ..).map Job.id).nodup hsub

/-- A row after the place is on the page, or after the page. -/
lemma covers (h : Answers db userId jobType limit after page) {job : Job}
    (hjob : job ∈ db.jobs.rows) (hmatches : Matches userId jobType job)
    (hafter : ∀ key, after = some key → JobRepository.position job < key) :
    .validate job ∈ page.items ∨
      page.hasMore = true ∧ ∀ item ∈ page.items, JobRepository.position job < item.position := by
  let rows := rowsAfter db userId jobType after
  have hmem : job ∈ rows.take limit ++ rows.drop limit := by
    rw [List.take_append_drop]
    exact mem_rowsAfter.mpr ⟨hjob, hmatches, hafter⟩
  have hsorted : (rows.take limit ++ rows.drop limit).Pairwise fun job job' =>
      JobRepository.position job' < JobRepository.position job := by
    rw [List.take_append_drop]
    exact pairwise_rowsAfter
  rcases List.mem_append.mp hmem with htake | hdrop
  · refine Or.inl ?_
    rw [h.items]
    exact List.mem_map_of_mem htake
  · refine Or.inr ⟨h.hasMore.mpr ?_, fun item hitem => ?_⟩
    · have hpos := List.length_pos_of_mem hdrop
      rw [List.length_drop] at hpos
      exact Nat.lt_of_sub_pos hpos
    · rw [h.items] at hitem
      obtain ⟨job', hjob', rfl⟩ := List.mem_map.mp hitem
      exact (List.pairwise_append.mp hsorted).2.2 job' hjob' job hdrop

/-- There is more exactly when a row comes after the page. -/
lemma hasMore_iff (h : Answers db userId jobType limit after page) :
    page.hasMore = true ↔ ∃ job ∈ db.jobs.rows, Matches userId jobType job ∧
      (∀ key, after = some key → JobRepository.position job < key) ∧
        ∀ item ∈ page.items, JobRepository.position job < item.position := by
  constructor
  · intro hmore
    let rows := rowsAfter db userId jobType after
    have hlong : limit < rows.length := h.hasMore.mp hmore
    have hmem : rows[limit] ∈ rows := List.getElem_mem hlong
    obtain ⟨hjob, hmatches, hafter⟩ := mem_rowsAfter.mp hmem
    refine ⟨rows[limit], hjob, hmatches, hafter, fun item hitem => ?_⟩
    rw [h.items] at hitem
    obtain ⟨job, htake, rfl⟩ := List.mem_map.mp hitem
    obtain ⟨k, hk, rfl⟩ := List.mem_take_iff_getElem.mp htake
    exact List.pairwise_iff_getElem.mp pairwise_rowsAfter k limit _ hlong (by omega)
  · rintro ⟨job, hjob, hmatches, hafter, hbelow⟩
    rcases h.covers hjob hmatches hafter with hitem | ⟨hmore, -⟩
    · exact absurd (hbelow _ hitem) (lt_irrefl _)
    · exact hmore

/-- The next request continues after the last item. -/
lemma continues (h : Answers db userId jobType limit after page) (hmore : page.hasMore = true) :
    ∃ last ∈ page.items, (∀ item ∈ page.items, last.position ≤ item.position) ∧
      startAfter page.nextCursor = .ok (some last.position) := by
  obtain ⟨last, cursor, hlast, hnext, hstart⟩ := h.next hmore
  refine ⟨.validate last, ?_, fun item hitem => ?_, hnext ▸ hstart⟩
  · rw [h.items]
    exact List.mem_map_of_mem (List.mem_of_getLast? hlast)
  · have hsplit := List.getLast?_eq_some_iff.mp hlast
    obtain ⟨earlier, hsplit⟩ := hsplit
    have hsorted : (earlier ++ [last]).Pairwise fun job job' =>
        JobRepository.position job' < JobRepository.position job := by
      rw [← hsplit]
      exact pairwise_rowsAfter.sublist (List.take_sublist ..)
    rw [h.items, hsplit] at hitem
    obtain ⟨job, hjob, rfl⟩ := List.mem_map.mp hitem
    rcases List.mem_append.mp hjob with hearlier | hjob
    · exact ((List.pairwise_append.mp hsorted).2.2 job hearlier last
        (List.mem_singleton_self last)).le
    · rw [List.mem_singleton.mp hjob]

end Answers

end Request

/-! ## The requests one after the other -/

section Traversal

variable {db : ℕ → Database} {userId : String} {jobType : Option JobType} {limit i : ℕ}
  {after : Option (Time ×ₗ Fin (2 ^ 128))} {pages : List (PaginatedResponse JobSummary)}
  {page : PaginatedResponse JobSummary}

/-- All that the pages list. -/
def listed (pages : List (PaginatedResponse JobSummary)) : List JobSummary :=
  pages.flatMap PaginatedResponse.items

/-- What the pages of the requests from the `i`-th one on list. -/
structure Traversal (db : ℕ → Database) (userId : String) (jobType : Option JobType) (i : ℕ)
    (after : Option (Time ×ₗ Fin (2 ^ 128))) (pages : List (PaginatedResponse JobSummary)) :
    Prop where
  rows : ∀ item ∈ listed pages, ∃ k, ∃ job ∈ (db k).jobs.rows, Matches userId jobType job ∧
    item = .validate job
  below : ∀ item ∈ listed pages, ∀ key, after = some key → item.position < key
  descending : (listed pages).Pairwise fun item item' => item'.position < item.position
  distinct : ((listed pages).map JobSummary.jobId).Nodup
  /-- The items have the times that the table has for their ids. -/
  constant : ∀ item ∈ listed pages, ∀ job ∈ (db i).jobs.rows, job.id = item.jobId →
    job.createdAt = item.createdAt
  complete : ∀ job ∈ (db i).jobs.rows, Matches userId jobType job →
    (∀ key, after = some key → JobRepository.position job < key) →
      ∃ item ∈ listed pages, item.jobId = job.id
  hasMore : ∀ k page, pages[k]? = some page → (page.hasMore = true ↔
    ∃ job ∈ (db (i + k)).jobs.rows, Matches userId jobType job ∧
      (∀ key, after = some key → JobRepository.position job < key) ∧
        ∀ item ∈ listed (pages.take (k + 1)), JobRepository.position job < item.position)
  next : ∀ page ∈ pages, page.nextCursor = none ↔ page.hasMore = false

section Request

variable {job job' : Job}

lemma position_congr (h : job'.request = job.request) :
    JobRepository.position job' = JobRepository.position job :=
  congrArg (fun r : JobRequest => (toLex (r.createdAt, r.id.int) : Time ×ₗ Fin (2 ^ 128))) h

lemma matches_congr (h : job'.request = job.request) :
    Matches userId jobType job' = Matches userId jobType job :=
  congrArg (fun r : JobRequest =>
    decide (r.userId = userId) && jobType.all fun jobType => r.type = jobType) h

end Request

lemma Answers.next_iff (h : Answers (db i) userId jobType limit after page) :
    page.nextCursor = none ↔ page.hasMore = false := by
  refine ⟨fun hnone => ?_, h.final⟩
  by_contra hmore
  obtain ⟨last, cursor, -, hsome, -⟩ := h.next (Bool.eq_true_of_not_eq_false hmore)
  cases hnone.symm.trans hsome

lemma Answers.constant (h : Answers (db i) userId jobType limit after page) :
    ∀ item ∈ page.items, ∀ job ∈ (db i).jobs.rows, job.id = item.jobId →
      job.createdAt = item.createdAt := by
  intro item hitem job hjob hid
  obtain ⟨row, hrow, -, -, rfl⟩ := h.row_of_item hitem
  exact congrArg Job.createdAt (Table.eq_of_key_eq hjob hrow hid)

/-- The last page. -/
lemma traversal_last (h : Answers (db i) userId jobType limit after page)
    (hlast : page.hasMore = false) : Traversal db userId jobType i after [page] := by
  have hlisted : listed [page] = page.items := by simp [listed]
  constructor
  · intro item hitem
    rw [hlisted] at hitem
    obtain ⟨job, hjob, hmatches, -, hrow⟩ := h.row_of_item hitem
    exact ⟨i, job, hjob, hmatches, hrow⟩
  · intro item hitem key hkey
    rw [hlisted] at hitem
    obtain ⟨job, -, -, hafter, rfl⟩ := h.row_of_item hitem
    exact hafter key hkey
  · exact hlisted ▸ h.descending
  · exact hlisted ▸ h.distinct
  · exact hlisted ▸ h.constant
  · intro job hjob hmatches hafter
    rcases h.covers hjob hmatches hafter with hitem | ⟨hmore, -⟩
    · exact ⟨_, hlisted ▸ hitem, rfl⟩
    · cases hlast.symm.trans hmore
  · intro k page' hpage
    cases k with
    | zero =>
        obtain rfl := Option.some.inj hpage
        exact hlisted ▸ h.hasMore_iff
    | succ k => cases hpage
  · intro page' hpage
    rw [List.mem_singleton.mp hpage]
    exact h.next_iff

/-! A page, and then the pages after its last item. -/

section Cons

variable {last item : JobSummary} {job : Job}

lemma mem_listed_cons :
    item ∈ listed (page :: pages) ↔ item ∈ page.items ∨ item ∈ listed pages := by
  rw [listed, List.flatMap_cons, List.mem_append]
  rfl

/-- The items of the page are before all later ones. -/
lemma later_below (hleast : ∀ item ∈ page.items, last.position ≤ item.position)
    (hrest : Traversal db userId jobType (i + 1) (some last.position) pages)
    {item' : JobSummary} (hitem : item ∈ listed pages) (hitem' : item' ∈ page.items) :
    item.position < item'.position :=
  (hrest.below item hitem _ rfl).trans_le (hleast item' hitem')

/-- The last item of a page is where the page may start. -/
lemma last_below (h : Answers (db i) userId jobType limit after page) (hlast : last ∈ page.items)
    {key : Time ×ₗ Fin (2 ^ 128)} (hkey : after = some key) : last.position < key := by
  obtain ⟨row, -, -, hafter, rfl⟩ := h.row_of_item hlast
  exact hafter key hkey

/-- The items of later requests have the times that the table had before. -/
lemma later_constant (hlater : Later (db i) (db (i + 1)))
    (hrest : Traversal db userId jobType (i + 1) (some last.position) pages)
    (hitem : item ∈ listed pages) (hjob : job ∈ (db i).jobs.rows) (hid : job.id = item.jobId) :
    job.createdAt = item.createdAt := by
  obtain ⟨job', hjob', hrequest⟩ := hlater job hjob
  have hid' : job'.id = job.id := congrArg JobRequest.id hrequest
  have hcreated : job'.createdAt = job.createdAt := congrArg JobRequest.createdAt hrequest
  rw [← hcreated]
  exact hrest.constant item hitem job' hjob' (hid'.trans hid)

/-- No later page lists a job of this page again. -/
lemma distinct_cons (hlater : Later (db i) (db (i + 1)))
    (h : Answers (db i) userId jobType limit after page)
    (hleast : ∀ item ∈ page.items, last.position ≤ item.position)
    (hrest : Traversal db userId jobType (i + 1) (some last.position) pages) :
    ((listed (page :: pages)).map JobSummary.jobId).Nodup := by
  rw [listed, List.flatMap_cons, List.map_append]
  refine List.Nodup.append h.distinct hrest.distinct fun id hpage hpages => ?_
  obtain ⟨item, hitem, rfl⟩ := List.mem_map.mp hpage
  obtain ⟨item', hitem', hid⟩ := List.mem_map.mp hpages
  obtain ⟨row, hrow, -, -, rfl⟩ := h.row_of_item hitem
  have hcreated := later_constant hlater hrest hitem' hrow hid.symm
  have hsame : item'.position = JobRepository.position row := by
    rw [JobSummary.position, JobRepository.position, ← hcreated, hid]
    rfl
  exact absurd (later_below hleast hrest hitem' hitem) (hsame ▸ lt_irrefl _)

/-- A row that this page leaves out is on a later one. -/
lemma complete_cons (hlater : Later (db i) (db (i + 1)))
    (h : Answers (db i) userId jobType limit after page) (hlast : last ∈ page.items)
    (hrest : Traversal db userId jobType (i + 1) (some last.position) pages)
    (hjob : job ∈ (db i).jobs.rows) (hmatches : Matches userId jobType job)
    (hafter : ∀ key, after = some key → JobRepository.position job < key) :
    ∃ item ∈ listed (page :: pages), item.jobId = job.id := by
  rcases h.covers hjob hmatches hafter with hitem | ⟨-, hall⟩
  · exact ⟨_, mem_listed_cons.mpr (Or.inl hitem), rfl⟩
  · obtain ⟨job', hjob', hrequest⟩ := hlater job hjob
    have hafter' : ∀ key, some last.position = some key → JobRepository.position job' < key := by
      intro key hkey
      rw [position_congr hrequest, ← Option.some.inj hkey]
      exact hall last hlast
    obtain ⟨item, hitem, hid⟩ := hrest.complete job' hjob'
      ((matches_congr hrequest).trans hmatches) hafter'
    exact ⟨item, mem_listed_cons.mpr (Or.inr hitem), hid.trans (congrArg JobRequest.id hrequest)⟩

/-- What is after the last item and after later ones is after all the items up to there. -/
lemma after_cons_iff (h : Answers (db i) userId jobType limit after page)
    (hlast : last ∈ page.items) (hleast : ∀ item ∈ page.items, last.position ≤ item.position) :
    ((∀ key, some last.position = some key → JobRepository.position job < key) ∧
        ∀ item ∈ listed pages, JobRepository.position job < item.position) ↔
      (∀ key, after = some key → JobRepository.position job < key) ∧
        ∀ item ∈ listed (page :: pages), JobRepository.position job < item.position := by
  constructor
  · rintro ⟨hlastKey, hall⟩
    have hjob : JobRepository.position job < last.position := hlastKey _ rfl
    refine ⟨fun key hkey => hjob.trans (last_below h hlast hkey), fun item hitem => ?_⟩
    rcases mem_listed_cons.mp hitem with hpage | hpages
    · exact hjob.trans_le (hleast item hpage)
    · exact hall item hpages
  · rintro ⟨-, hall⟩
    refine ⟨fun key hkey => ?_, fun item hitem => hall item (mem_listed_cons.mpr (Or.inr hitem))⟩
    rw [← Option.some.inj hkey]
    exact hall last (mem_listed_cons.mpr (Or.inl hlast))

lemma traversal_cons (hlater : Later (db i) (db (i + 1)))
    (h : Answers (db i) userId jobType limit after page) (hlast : last ∈ page.items)
    (hleast : ∀ item ∈ page.items, last.position ≤ item.position)
    (hrest : Traversal db userId jobType (i + 1) (some last.position) pages) :
    Traversal db userId jobType i after (page :: pages) where
  rows item hitem := by
    rcases mem_listed_cons.mp hitem with hpage | hpages
    · obtain ⟨job, hjob, hmatches, -, hrow⟩ := h.row_of_item hpage
      exact ⟨i, job, hjob, hmatches, hrow⟩
    · exact hrest.rows item hpages
  below item hitem key hkey := by
    rcases mem_listed_cons.mp hitem with hpage | hpages
    · obtain ⟨job, -, -, hafter, rfl⟩ := h.row_of_item hpage
      exact hafter key hkey
    · exact (later_below hleast hrest hpages hlast).trans (last_below h hlast hkey)
  descending := by
    rw [listed, List.flatMap_cons]
    exact List.pairwise_append.mpr ⟨h.descending, hrest.descending,
      fun item hitem item' hitem' => later_below hleast hrest hitem' hitem⟩
  distinct := distinct_cons hlater h hleast hrest
  constant item hitem job hjob hid := by
    rcases mem_listed_cons.mp hitem with hpage | hpages
    · exact h.constant item hpage job hjob hid
    · exact later_constant hlater hrest hpages hjob hid
  complete job hjob hmatches hafter := complete_cons hlater h hlast hrest hjob hmatches hafter
  hasMore k page' hpage := by
    cases k with
    | zero =>
        obtain rfl := Option.some.inj hpage
        have htake : listed ((page :: pages).take (0 + 1)) = page.items := by simp [listed]
        rw [htake]
        exact h.hasMore_iff
    | succ k =>
        have hindex : i + (k + 1) = i + 1 + k := by omega
        rw [hrest.hasMore k page' hpage, hindex, List.take_succ_cons]
        exact exists_congr fun job => and_congr_right fun _ => and_congr_right fun _ =>
          after_cons_iff h hlast hleast
  next page' hpage := by
    rcases List.mem_cons.mp hpage with rfl | hpage
    · exact h.next_iff
    · exact hrest.next page' hpage

end Cons

variable (hlater : ∀ i, Later (db i) (db (i + 1))) (hdated : ∀ i, Dated (db i))
  (hlimit : 1 ≤ limit)
include hlater hdated hlimit

lemma traversal_of_follow {n : ℕ} {cursor : Option String} (hcursor : startAfter cursor = .ok after)
    (h : follow db userId jobType limit n i cursor = some pages) :
    Traversal db userId jobType i after pages := by
  induction n generalizing i cursor after pages with
  | zero => cases h
  | succ n ih =>
      obtain ⟨page, hpage, hanswers⟩ := exists_answers (hdated i) hlimit hcursor
      rw [follow, hpage] at h
      dsimp only at h
      by_cases hmore : page.hasMore = true
      · rw [if_pos hmore] at h
        obtain ⟨rest, hrest, rfl⟩ := Option.map_eq_some_iff.mp h
        obtain ⟨last, hlast, hleast, hnext⟩ := hanswers.continues hmore
        exact traversal_cons (hlater i) hanswers hlast hleast (ih hnext hrest)
      · rw [if_neg hmore] at h
        obtain rfl := Option.some.inj h
        exact traversal_last hanswers (Bool.eq_false_of_not_eq_true hmore)

omit hlater hdated hlimit

/-- The rows that the requests have passed when they continue after a place. -/
def passed (db : Database) (userId : String) (jobType : Option JobType)
    (after : Option (Time ×ₗ Fin (2 ^ 128))) : List Job :=
  db.jobs.rows.filter fun job => Matches userId jobType job &&
    after.any fun after => after ≤ JobRepository.position job

lemma mem_passed {db : Database} {job : Job} : job ∈ passed db userId jobType after ↔
    job ∈ db.jobs.rows ∧ Matches userId jobType job ∧
      ∃ key, after = some key ∧ key ≤ JobRepository.position job := by
  rw [passed, List.mem_filter, Bool.and_eq_true]
  cases after <;> simp

/-- Every request but the last passes at least one more row. -/
lemma passed_lt (hlater : Later (db i) (db (i + 1))) {job : Job} (hjob : job ∈ (db i).jobs.rows)
    (hmatches : Matches userId jobType job)
    (hafter : ∀ key, after = some key → JobRepository.position job < key) :
    (passed (db i) userId jobType after).length <
      (passed (db (i + 1)) userId jobType (some (JobRepository.position job))).length := by
  have hnodup : ((job :: passed (db i) userId jobType after).map Job.id).Nodup := by
    refine List.nodup_cons.mpr ⟨fun hmem => ?_, (List.filter_sublist.map _).nodup (db i).jobs.nodup⟩
    obtain ⟨job', hjob', hid⟩ := List.mem_map.mp hmem
    obtain ⟨hrow', -, key, hkey, hle⟩ := mem_passed.mp hjob'
    obtain rfl := Table.eq_of_key_eq hrow' hjob hid
    exact absurd (hafter key hkey) (not_lt_of_ge hle)
  have hsubset : (job :: passed (db i) userId jobType after).map Job.id ⊆
      (passed (db (i + 1)) userId jobType (some (JobRepository.position job))).map Job.id := by
    intro id hid
    obtain ⟨job', hjob', rfl⟩ := List.mem_map.mp hid
    have hreached : job' ∈ (db i).jobs.rows ∧ Matches userId jobType job' ∧
        JobRepository.position job ≤ JobRepository.position job' := by
      rcases List.mem_cons.mp hjob' with rfl | hjob'
      · exact ⟨hjob, hmatches, le_rfl⟩
      · obtain ⟨hrow', hmatches', key, hkey, hle⟩ := mem_passed.mp hjob'
        exact ⟨hrow', hmatches', (hafter key hkey).le.trans hle⟩
    obtain ⟨hrow', hmatches', hle⟩ := hreached
    obtain ⟨job'', hrow'', hrequest⟩ := hlater job' hrow'
    refine List.mem_map.mpr ⟨job'', mem_passed.mpr ⟨hrow'', (matches_congr hrequest).trans
      hmatches', _, rfl, ?_⟩, congrArg JobRequest.id hrequest⟩
    rw [position_congr hrequest]
    exact hle
  have hle := (List.subperm_of_subset hnodup hsubset).length_le
  rw [List.length_map, List.length_map, List.length_cons] at hle
  exact hle

include hlater hdated hlimit

/-- The requests reach the end when the table does not grow without bound. -/
lemma follow_of_bounded {bound n : ℕ} {cursor : Option String}
    (hbound : ∀ k, ((db k).jobs.rows.filter (Matches userId jobType)).length ≤ bound)
    (hcursor : startAfter cursor = .ok after)
    (hn : bound < n + (passed (db i) userId jobType after).length) :
    ∃ pages, follow db userId jobType limit n i cursor = some pages := by
  induction n generalizing i cursor after with
  | zero =>
      have hle : (passed (db i) userId jobType after).length ≤
          ((db i).jobs.rows.filter (Matches userId jobType)).length := by
        rw [passed, ← List.countP_eq_length_filter, ← List.countP_eq_length_filter]
        exact List.countP_mono_left fun _ _ h => (Bool.and_eq_true_iff.mp h).1
      have hbound := hbound i
      omega
  | succ n ih =>
      obtain ⟨page, hpage, hanswers⟩ := exists_answers (hdated i) hlimit hcursor
      rw [follow, hpage]
      dsimp only
      by_cases hmore : page.hasMore = true
      · obtain ⟨last, hlast, -, hnext⟩ := hanswers.continues hmore
        obtain ⟨job, hjob, hmatches, hafter, rfl⟩ := hanswers.row_of_item hlast
        have hlt := passed_lt (hlater i) hjob hmatches hafter
        have hn' : bound < n + (passed (db (i + 1)) userId jobType
            (some (JobRepository.position job))).length := by omega
        obtain ⟨pages, hpages⟩ := ih hnext hn'
        rw [if_pos hmore, hpages]
        exact ⟨_, rfl⟩
      · rw [if_neg hmore]
        exact ⟨_, rfl⟩

end Traversal

/-- **Following the cursors.**  While jobs are inserted and change their status, the pages from the
first one to the one without a successor list every job that was there at the start exactly once and
no job twice, strictly by creation time and id; and they end when the table does not grow without
bound. -/
theorem pagination_complete {db : ℕ → Database} {userId : String} {jobType : Option JobType}
    {limit : ℕ} (hlimit : 1 ≤ limit) (hlater : ∀ i, Later (db i) (db (i + 1)))
    (hdated : ∀ i, Dated (db i)) :
    (∀ n pages, follow db userId jobType limit n 0 none = some pages →
      (∀ job ∈ (db 0).jobs.rows, Matches userId jobType job →
        ((listed pages).map JobSummary.jobId).count job.id = 1) ∧
      ((listed pages).map JobSummary.jobId).Nodup ∧
      (∀ item ∈ listed pages, ∃ k, ∃ job ∈ (db k).jobs.rows, Matches userId jobType job ∧
        item = .validate job) ∧
      (listed pages).Pairwise (fun item item' => item'.position < item.position) ∧
      ∀ k page, pages[k]? = some page →
        (page.hasMore = true ↔ ∃ job ∈ (db k).jobs.rows, Matches userId jobType job ∧
          ∀ item ∈ listed (pages.take (k + 1)), JobRepository.position job < item.position) ∧
        (page.nextCursor = none ↔ page.hasMore = false)) ∧
    (∀ bound, (∀ k, ((db k).jobs.rows.filter (Matches userId jobType)).length ≤ bound) →
      ∃ pages, follow db userId jobType limit (bound + 1) 0 none = some pages) := by
  have hnone : startAfter none = .ok none := rfl
  refine ⟨fun n pages hpages => ?_, fun bound hbound => ?_⟩
  · have h := traversal_of_follow hlater hdated hlimit hnone hpages
    refine ⟨fun job hjob hmatches => ?_, h.distinct, h.rows, h.descending, fun k page hpage => ?_⟩
    · obtain ⟨item, hitem, hid⟩ := h.complete job hjob hmatches nofun
      rw [← hid]
      exact List.count_eq_one_of_mem h.distinct (List.mem_map_of_mem hitem)
    · have hmore := h.hasMore k page hpage
      simp only [reduceCtorEq, false_imp_iff, implies_true, true_and, Nat.zero_add] at hmore
      exact ⟨hmore, h.next page (List.mem_of_getElem? hpage)⟩
  · exact follow_of_bounded hlater hdated hlimit hbound hnone (by omega)

namespace Scenario

def listedJob (n : Fin (2 ^ 128)) (createdAt : Time) : Job :=
  SubmissionService.newJob {} keyedArgs ⟨n⟩ createdAt (by decide)

def listedJobs (jobs : List Job) (h : (jobs.map Job.id).Nodup) : Database :=
  { Database.empty with jobs := ⟨jobs, h⟩ }

/-- Two jobs of one instant, and a third one from the second request on. -/
def growing (i : ℕ) : Database :=
  if i = 0 then listedJobs [listedJob 1 5, listedJob 2 5] (by decide)
  else listedJobs [listedJob 1 5, listedJob 2 5, listedJob 3 5] (by decide)

lemma mem_growing {i : ℕ} {job : Job} (h : job ∈ (growing i).jobs.rows) :
    job = listedJob 1 5 ∨ job = listedJob 2 5 ∨ job = listedJob 3 5 := by
  unfold growing at h
  split at h
  · rcases List.mem_pair.mp h with rfl | rfl
    · exact Or.inl rfl
    · exact Or.inr (Or.inl rfl)
  · simpa [listedJobs] using h

end Scenario

/-- Pages of one job each, with a job of the same instant inserted after the first request. -/
theorem pagination_complete_growing : ∃ pages,
    follow Scenario.growing "user" none 1 4 0 none = some pages ∧
      ((listed pages).map JobSummary.jobId).count ⟨1⟩ = 1 ∧
        ((listed pages).map JobSummary.jobId).count ⟨2⟩ = 1 := by
  have hlater : ∀ i, Later (Scenario.growing i) (Scenario.growing (i + 1)) := by
    intro i job hjob
    refine ⟨job, ?_, rfl⟩
    have hgrown : (Scenario.growing (i + 1)).jobs.rows =
        [Scenario.listedJob 1 5, Scenario.listedJob 2 5, Scenario.listedJob 3 5] := rfl
    rw [hgrown]
    simpa using Scenario.mem_growing hjob
  have hdated : ∀ i, Dated (Scenario.growing i) := by
    intro i job hjob
    have hfive : (Datetime.utc 5).isSome := by decide +kernel
    rcases Scenario.mem_growing hjob with rfl | rfl | rfl <;> exact hfive
  have hbound : ∀ k, ((Scenario.growing k).jobs.rows.filter (Matches "user" none)).length ≤ 3 := by
    intro k
    refine (List.length_filter_le ..).trans ?_
    unfold Scenario.growing
    split <;> decide
  obtain ⟨hlists, hends⟩ := pagination_complete le_rfl hlater hdated
  obtain ⟨pages, hpages⟩ := hends 3 hbound
  obtain ⟨honce, -⟩ := hlists 4 pages hpages
  exact ⟨pages, hpages, honce (Scenario.listedJob 1 5) List.mem_cons_self rfl,
    honce (Scenario.listedJob 2 5) (List.mem_cons_of_mem _ List.mem_cons_self) rfl⟩

end JobOrchestrator
