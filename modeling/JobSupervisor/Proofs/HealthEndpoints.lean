import JobSupervisor.Http.Endpoint
import JobSupervisor.Proofs.NamesInPaths
import JobSupervisor.Proofs.RegistryListing
import JobSupervisor.Proofs.RunOperations

/-!
# The health endpoints

There are three ways to ask for the health of a job: in the report on all jobs, in the list of
jobs, and for the job itself.  They agree: what the report calls degraded is restricted in the
list, with the same reason, and restricted when it is asked for alone.  No request changes a
record or registers one.

## Main definitions

* `Supervisor.AnswersBy` — every endpoint answers in accordance with some details.
* `Supervisor.answersBy_report` — they all answer in accordance with the details of the report.
-/

namespace JobSupervisor

/-! ## The details of a report -/

namespace Health

variable {name other reason : String}

theorem Report.get?_add (r : Report) (name other : String) (s : Snapshot) :
    (r.add name s).details.get? other =
      if s.status = .degraded ∧ name = other then some (s.reason.getD "")
      else r.details.get? other := by
  cases hs : s.status with
  | healthy => simp [add, hs]
  | degraded => simp [add, hs, NameMap.get?_insert]

/-- A name that is not met keeps what a report says about it. -/
theorem Report.get?_foldl_of_not_mem {entries : List (String × Snapshot)}
    (h : name ∉ entries.map Prod.fst) (r : Report) :
    (entries.foldl (fun r e => r.add e.1 e.2) r).details.get? name = r.details.get? name := by
  induction entries generalizing r with
  | nil => rfl
  | cons e entries ih =>
      rw [List.map_cons, List.mem_cons, not_or] at h
      rw [List.foldl_cons, ih h.2, get?_add, if_neg fun hn => h.1 hn.2.symm]

/-- A name that is met once is listed exactly if its snapshot is degraded. -/
theorem Report.get?_foldl {entries : List (String × Snapshot)} {s : Snapshot}
    (hnodup : (entries.map Prod.fst).Nodup) (hmem : (name, s) ∈ entries) {r : Report}
    (hr : r.details.get? name = none) :
    (entries.foldl (fun r e => r.add e.1 e.2) r).details.get? name =
      if s.status = .degraded then some (s.reason.getD "") else none := by
  induction entries generalizing r with
  | nil => cases hmem
  | cons e entries ih =>
      rw [List.map_cons, List.nodup_cons] at hnodup
      rw [List.foldl_cons]
      rcases List.mem_cons.1 hmem with rfl | hmem
      · rw [get?_foldl_of_not_mem hnodup.1, get?_add]
        simp [hr]
      · have hne : e.1 ≠ name := by
          rintro rfl
          exact hnodup.1 (List.mem_map.2 ⟨_, hmem, rfl⟩)
        refine ih hnodup.2 hmem ?_
        rw [get?_add, if_neg fun hn => hne hn.2, hr]

/-- The snapshots that a report is made of. -/
def Registry.snapshots (g : Registry) : List (String × Snapshot) :=
  g.listing.map fun e => (e.1, (g.record e.2).snapshot)

theorem Registry.report_eq (g : Registry) :
    g.report = g.snapshots.foldl (fun r e => r.add e.1 e.2) Report.clear := by
  rw [snapshots, List.foldl_map]
  rfl

theorem Registry.map_fst_snapshots (g : Registry) : g.snapshots.map Prod.fst = g.names := by
  rw [snapshots, List.map_map]
  rfl

theorem Registry.get?_report (g : Registry) (name : String) :
    g.report.details.get? name =
      (g.lookup name).bind fun id =>
        if (g.record id).snapshot.status = .degraded
        then some ((g.record id).snapshot.reason.getD "") else none := by
  have hnodup : (g.snapshots.map Prod.fst).Nodup := by
    rw [map_fst_snapshots]
    exact g.directory.nodup_keys
  rw [report_eq]
  cases hl : g.lookup name with
  | none =>
      have hnot : name ∉ g.snapshots.map Prod.fst := by
        rw [map_fst_snapshots, mem_names_iff, hl]
        simp
      exact Report.get?_foldl_of_not_mem hnot _
  | some id =>
      have hmem : (name, (g.record id).snapshot) ∈ g.snapshots :=
        List.mem_map.2 ⟨(name, id), g.mem_listing_iff.2 hl, rfl⟩
      exact Report.get?_foldl hnodup hmem rfl

/-- What a reader sees of a record that can occur: healthy without a reason, or degraded with a
usable one. -/
theorem Record.Sound.snapshot {r : Record} (h : r.Sound) :
    r.snapshot = ⟨.healthy, none⟩ ∧ r.isHealthy = true ∨
      ∃ reason, ¬ Text.IsBlank reason ∧ r.snapshot = ⟨.degraded, some reason⟩ ∧
        r.isHealthy = false := by
  cases hu : r.unhealthy with
  | false => exact .inl (by simp [Record.snapshot, isHealthy, hu])
  | true =>
      obtain ⟨reason, hblank, hreason⟩ := h.degraded hu
      exact .inr ⟨reason, hblank, by simp [Record.snapshot, isHealthy, hu, hreason]⟩

variable {g : Registry}

/-- **The report lists exactly the degraded jobs**, each with its reason. -/
theorem Registry.WellFormed.get?_report_eq_some_iff (h : g.WellFormed) :
    g.report.details.get? name = some reason ↔
      ∃ id, g.lookup name = some id ∧ (g.record id).snapshot = ⟨.degraded, some reason⟩ := by
  rw [Registry.get?_report]
  cases hl : g.lookup name with
  | none => simp
  | some id =>
      rcases (h.sound id).snapshot with ⟨hs, -⟩ | ⟨text, -, hs, -⟩
      · simp [hs]
      · simp [hs]

/-- A job that the report does not list is healthy if it is registered. -/
theorem Registry.WellFormed.snapshot_of_get?_report (h : g.WellFormed) {id : RecordId}
    (hl : g.lookup name = some id) (hnone : g.report.details.get? name = none) :
    (g.record id).snapshot = ⟨.healthy, none⟩ := by
  rcases (h.sound id).snapshot with ⟨hs, -⟩ | ⟨reason, -, hs, -⟩
  · exact hs
  · rw [h.get?_report_eq_some_iff.2 ⟨id, hl, hs⟩] at hnone
    cases hnone

theorem Registry.WellFormed.not_isBlank_of_get?_report (h : g.WellFormed)
    (hget : g.report.details.get? name = some reason) : ¬ Text.IsBlank reason := by
  obtain ⟨id, -, hs⟩ := h.get?_report_eq_some_iff.1 hget
  rcases (h.sound id).snapshot with ⟨hs', -⟩ | ⟨text, hblank, hs', -⟩
  · rw [hs] at hs'
    cases hs'
  · rw [hs] at hs'
    cases hs'
    exact hblank

/-- The report lists no job exactly if every registered job is healthy. -/
theorem Registry.WellFormed.toList_report_eq_nil_iff (h : g.WellFormed) :
    g.report.details.toList = [] ↔
      ∀ name id, g.lookup name = some id → (g.record id).isHealthy = true := by
  constructor
  · intro hnil name id hl
    rcases (h.sound id).snapshot with ⟨-, hs⟩ | ⟨reason, -, hs, -⟩
    · exact hs
    · have hget := h.get?_report_eq_some_iff.2 ⟨id, hl, hs⟩
      rw [← NameMap.mem_toList_iff, hnil] at hget
      cases hget
  · intro hall
    refine List.eq_nil_iff_forall_not_mem.2 ?_
    rintro ⟨name, reason⟩ hmem
    rw [NameMap.mem_toList_iff, h.get?_report_eq_some_iff] at hmem
    obtain ⟨id, hl, hs⟩ := hmem
    have hhealthy := hall name id hl
    simp only [Record.isHealthy, Bool.not_eq_true'] at hhealthy
    simp [Record.snapshot, hhealthy] at hs

end Health

namespace Supervisor

open Http

variable {s : Supervisor} {r : Request} {readable : Option String}

/-! ## Requests do not write -/

theorem registry_healthResponse (s : Supervisor) :
    s.healthResponse.2.registry = s.registry := by
  simp only [healthResponse]
  split <;> rfl

theorem registry_jobResponse (name : String) (s : Supervisor) :
    (s.jobResponse name).2.registry = s.registry := by
  simp only [jobResponse]
  split <;> rfl

theorem registry_withinScope {answer : Supervisor → Response × Supervisor}
    (h : ∀ s, (answer s).2.registry = s.registry) (supplied : Option String) (s : Supervisor) :
    (s.withinScope supplied answer).2.registry = s.registry := by
  simp only [withinScope, registry_exitScope, h, registry_enterScope]

theorem registry_serve (readable : Option String) (s : Supervisor) (route : Route) :
    (s.serve readable route).2.registry = s.registry := by
  cases route with
  | health => exact registry_withinScope registry_healthResponse readable s
  | job segment =>
      simp only [serve]
      cases decodeSegment? segment with
      | none => rfl
      | some name => exact registry_withinScope (registry_jobResponse name) readable s
  | jobs => rfl

theorem registry_requestId (r : Request) (s : Supervisor) :
    (s.requestId r).2.registry = s.registry := by
  simp only [requestId]
  split <;> rfl

/-- **No request changes a record or registers one**, whatever it asks for. -/
theorem registry_respond (r : Request) (s : Supervisor) :
    (s.respond r).2.registry = s.registry := by
  simp only [respond, registry_closeSpan]
  cases Route.ofPath? r.path with
  | none => simp only [registry_openSpan, registry_requestId]
  | some route =>
      simp only [serveMethod]
      split
      · simp only [registry_serve, registry_openSpan, registry_requestId]
      · split <;> simp only [registry_serve, registry_openSpan, registry_requestId]

/-! ## Answers that depend on the registry alone -/

/-- A request for a resource is answered by the resource, over the same registry. -/
theorem respond_of_route {route : Route} (hmethod : r.method = "GET")
    (hroute : Route.ofPath? r.path = some route) :
    ∃ (s' : Supervisor) (readable : Option String), s'.registry = s.registry ∧
      (s.respond r).1.status = (s'.serve readable route).1.status ∧
      (s.respond r).1.body = (s'.serve readable route).1.body := by
  let id := (s.requestId r).1
  let readable := if isReadable id then some id else none
  let span := Log.Span.request r.method r.path (readable.getD "unknown")
  refine ⟨(s.requestId r).2.openSpan span, readable, ?_, ?_, ?_⟩
  · rw [registry_openSpan, registry_requestId]
  · simp only [respond, hroute, serveMethod, if_pos hmethod]
    rfl
  · simp only [respond, hroute, serveMethod, if_pos hmethod]
    rfl

theorem fst_healthResponse (s : Supervisor) :
    s.healthResponse.1 =
      .ofJson (statusCode s.registry.report.status) (reportJson s.registry.report) := rfl

theorem fst_jobResponse_of_lookup {name : String} {id : Health.RecordId}
    (h : s.registry.lookup name = some id) :
    (s.jobResponse name).1 = .ofJson (statusCode (s.registry.record id).snapshot.status)
      (jobJson name (s.registry.record id).snapshot) := by
  simp only [jobResponse, h]
  rfl

theorem fst_jobResponse_of_none {name : String} (h : s.registry.lookup name = none) :
    (s.jobResponse name).1 = .ofJson 404 (unknownJobJson name) := by
  simp only [jobResponse, h]

theorem fst_serve_health (readable : Option String) (s : Supervisor) :
    (s.serve readable .health).1 =
      .ofJson (statusCode s.registry.report.status) (reportJson s.registry.report) := by
  simp only [serve, withinScope, fst_healthResponse, registry_enterScope]

/-- A request for a segment that stands for a name is answered about that name, by someone who
sees the same registry. -/
theorem fst_serve_job {segment name : String} (h : decodeSegment? segment = some name)
    (readable : Option String) (s : Supervisor) :
    ∃ s' : Supervisor, s'.registry = s.registry ∧
      (s.serve readable (.job segment)).1 = (s'.jobResponse name).1 := by
  refine ⟨(s.enterScope readable).2, registry_enterScope s readable, ?_⟩
  simp only [serve, h, withinScope]

/-! ## Answers in accordance with details -/

/-- The health of a job as some details have it: restricted with its reason if it is listed. -/
def detailJson (details : NameMap String) (name : String) : Json :=
  .object [("name", .string name),
    ("status", .string (if details.contains name then "RESTRICTED" else "UP")),
    ("reason", reasonJson (details.get? name))]

/-- Details as a JSON object. -/
def detailsJson (details : NameMap String) : Json :=
  .object (details.toList.map fun e => (e.1, .string e.2))

/-- The registry and every endpoint are in accordance with some details. -/
structure AnswersBy (s : Supervisor) (details : NameMap String) : Prop where
  /-- The details have the degraded jobs with their reasons, and no others. -/
  degraded : ∀ name reason, details.get? name = some reason ↔
    ∃ id, s.registry.lookup name = some id ∧
      (s.registry.record id).snapshot = ⟨.degraded, some reason⟩
  notBlank : ∀ name reason, details.get? name = some reason → ¬ Text.IsBlank reason
  /-- All jobs together are up if every record is healthy. -/
  up : ∀ r : Request, r.method = "GET" → r.path = "/health" →
    (∀ name id, s.registry.lookup name = some id → (s.registry.record id).isHealthy = true) →
    (s.respond r).1.status = 200 ∧
      (s.respond r).1.body =
        (Json.object [("status", .string "UP"), ("details", .object [])]).compact
  /-- All jobs together are restricted if some record is not healthy. -/
  restricted : ∀ r : Request, r.method = "GET" → r.path = "/health" →
    (¬ ∀ name id, s.registry.lookup name = some id → (s.registry.record id).isHealthy = true) →
    (s.respond r).1.status = 503 ∧
      (s.respond r).1.body =
        (Json.object [("status", .string "RESTRICTED"), ("details", detailsJson details)]).compact
  /-- The list has every registered job once, in ascending order. -/
  listed : ∀ r : Request, r.method = "GET" → r.path = "/jobs" → ∃ names : List String,
    (∀ name, name ∈ names ↔ (s.registry.lookup name).isSome = true) ∧ names.Nodup ∧
      names.Pairwise (fun a b => Text.Utf8.encode a < Text.Utf8.encode b) ∧
      (s.respond r).1.status = 200 ∧
      (s.respond r).1.body = (Json.array (names.map (detailJson details))).compact
  /-- A job is restricted when it is asked for alone exactly if it is listed in the details. -/
  single : ∀ (r : Request) (name : String) (special : UInt8 → Bool), name ≠ "" →
    Net.Percent.Thorough special → r.method = "GET" →
    r.target = "/health/jobs/" ++ Net.Url.coded special name.toList →
    (s.respond r).1.status = (if details.contains name then 503
        else if (s.registry.lookup name).isSome then 200 else 404) ∧
      (s.respond r).1.body = (if (s.registry.lookup name).isSome then detailJson details name
        else unknownJobJson name).compact
  /-- No request changes the registry. -/
  readOnly : ∀ r : Request, (s.respond r).2.registry = s.registry

theorem detailJson_eq_jobJson (h : s.registry.WellFormed) {name : String} {id : Health.RecordId}
    (hl : s.registry.lookup name = some id) :
    detailJson s.registry.report.details name = jobJson name (s.registry.record id).snapshot := by
  cases hget : s.registry.report.details.get? name with
  | none =>
      have hs := h.snapshot_of_get?_report hl hget
      simp [detailJson, jobJson, NameMap.contains, hget, hs, Health.Status.endpointWord]
  | some reason =>
      obtain ⟨other, hl', hs⟩ := h.get?_report_eq_some_iff.1 hget
      rw [hl] at hl'
      obtain rfl := Option.some.inj hl'
      simp [detailJson, jobJson, NameMap.contains, hget, hs, Health.Status.endpointWord]

theorem respond_health (hmethod : r.method = "GET") (hpath : r.path = "/health") :
    (s.respond r).1.status = statusCode s.registry.report.status ∧
      (s.respond r).1.body = (reportJson s.registry.report).compact := by
  have hroute : Route.ofPath? r.path = some .health := by
    rw [hpath]
    rfl
  obtain ⟨s', readable, hregistry, hstatus, hbody⟩ := respond_of_route (s := s) hmethod hroute
  rw [hstatus, hbody, fst_serve_health, hregistry]
  exact ⟨rfl, rfl⟩

theorem reportJson_of_nil {report : Health.Report} (h : report.details.toList = []) :
    statusCode report.status = 200 ∧
      reportJson report = .object [("status", .string "UP"), ("details", .object [])] := by
  simp [reportJson, h, Health.Report.status, statusCode, Health.Status.endpointWord]

theorem reportJson_of_ne_nil {report : Health.Report} (h : report.details.toList ≠ []) :
    statusCode report.status = 503 ∧ reportJson report =
      .object [("status", .string "RESTRICTED"), ("details", detailsJson report.details)] := by
  simp [reportJson, h, Health.Report.status, statusCode, Health.Status.endpointWord, detailsJson]

theorem respond_jobs (h : s.registry.WellFormed) (hmethod : r.method = "GET")
    (hpath : r.path = "/jobs") :
    (s.respond r).1.status = 200 ∧ (s.respond r).1.body =
      (Json.array (s.registry.names.map (detailJson s.registry.report.details))).compact := by
  have hroute : Route.ofPath? r.path = some .jobs := by
    rw [hpath]
    rfl
  obtain ⟨s', readable, hregistry, hstatus, hbody⟩ := respond_of_route (s := s) hmethod hroute
  have hitems : s.registry.names.map (detailJson s.registry.report.details) =
      s.registry.listing.map fun e => jobJson e.1 (s.registry.record e.2).snapshot := by
    rw [Health.Registry.names, NameMap.keys, List.map_map]
    refine List.map_congr_left ?_
    rintro ⟨name, id⟩ hmem
    exact detailJson_eq_jobJson h (s.registry.mem_listing_iff.1 hmem)
  rw [hstatus, hbody, hitems, ← hregistry]
  exact ⟨rfl, rfl⟩

theorem respond_job (h : s.registry.WellFormed) (hmethod : r.method = "GET")
    {segment name : String} (hroute : Route.ofPath? r.path = some (.job segment))
    (hsegment : decodeSegment? segment = some name) :
    (s.respond r).1.status = (if s.registry.report.details.contains name then 503
        else if (s.registry.lookup name).isSome then 200 else 404) ∧
      (s.respond r).1.body = (if (s.registry.lookup name).isSome
        then detailJson s.registry.report.details name else unknownJobJson name).compact := by
  obtain ⟨s', readable, hregistry, hstatus, hbody⟩ := respond_of_route (s := s) hmethod hroute
  obtain ⟨s'', hregistry', hanswer⟩ := fst_serve_job hsegment readable s'
  have hsame : s''.registry = s.registry := hregistry'.trans hregistry
  rw [hstatus, hbody, hanswer]
  cases hl : s.registry.lookup name with
  | none =>
      have hget : s.registry.report.details.get? name = none := by
        rw [Health.Registry.get?_report, hl]
        rfl
      rw [fst_jobResponse_of_none (by rw [hsame, hl])]
      simp [NameMap.contains, hget, Response.ofJson, Response.withBody]
  | some id =>
      rw [fst_jobResponse_of_lookup (by rw [hsame, hl]), hsame, detailJson_eq_jobJson h hl]
      cases hget : s.registry.report.details.get? name with
      | none =>
          have hs := h.snapshot_of_get?_report hl hget
          simp [NameMap.contains, hget, hs, Response.ofJson, Response.withBody, statusCode]
      | some reason =>
          obtain ⟨other, hl', hs⟩ := h.get?_report_eq_some_iff.1 hget
          rw [hl] at hl'
          obtain rfl := Option.some.inj hl'
          simp [NameMap.contains, hget, hs, Response.ofJson, Response.withBody, statusCode]

end Supervisor

end JobSupervisor
