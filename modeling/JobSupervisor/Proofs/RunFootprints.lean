import JobSupervisor.Proofs.RunCrew

/-!
# What a run reads and writes of the shared state

Of everything that is shared, a run reads and writes the record and the metrics of its own job
only.  Its next step, and what that step does to them, depends on nothing else, apart from the
place at which the registry keeps the record: that depends on the order in which records are
created, but nothing a run does depends on it.

## Main definitions

* `Supervisor.footprint` — the record and the metrics of a job.
* `Supervisor.Touches` — one supervisor becomes another, at most the footprint of a job changes.
* `Stage.relocate` — a stage with another place of the record.
* `Worker.Alike`, `Worker.Alike.step` — runs that are alike stay alike.
* `Worker.touches_step` — a step leaves the footprints of other jobs alone.
-/

namespace JobSupervisor

open Health (RecordId Operation)

/-! ## The record of a name -/

namespace Health.Registry

variable {g : Registry} {name other : String} {id : RecordId}

/-- The record of a name, if it has one. -/
def recordOf? (g : Registry) (name : String) : Option Record := (g.lookup name).map g.record

theorem recordOf?_of_lookup (h : g.lookup name = some id) :
    g.recordOf? name = some (g.record id) := by
  rw [recordOf?, h]
  rfl

theorem recordOf?_perform_self (hg : g.WellFormed) (h : g.lookup name = some id)
    (op : Operation) : (g.perform id op).recordOf? name = (g.recordOf? name).map op.apply := by
  rw [recordOf?_of_lookup (g := g.perform id op) h, recordOf?_of_lookup h,
    record_perform_self g (hg.inRange name id h)]
  rfl

theorem recordOf?_perform_of_ne (hg : g.Separate) (h : g.lookup name = some id)
    (hne : name ≠ other) (op : Operation) :
    (g.perform id op).recordOf? other = g.recordOf? other := by
  cases hother : g.lookup other with
  | none => rw [recordOf?, recordOf?, lookup_perform, hother]; rfl
  | some id' =>
      have hid : id ≠ id' := fun heq => hne (hg name other id h (heq ▸ hother))
      rw [recordOf?_of_lookup (g := g.perform id op) hother, recordOf?_of_lookup hother,
        record_perform_of_ne g hid]

theorem recordOf?_findOrInsert_self (g : Registry) (name : String) :
    (g.findOrInsert name).2.recordOf? name = some ((g.recordOf? name).getD Record.pristine) := by
  rw [recordOf?_of_lookup (g.lookup_findOrInsert_self name), record_findOrInsert,
    record_findOrInsert_self]
  rfl

theorem recordOf?_findOrInsert_of_ne (g : Registry) (hne : name ≠ other) :
    (g.findOrInsert name).2.recordOf? other = g.recordOf? other := by
  rw [recordOf?, recordOf?, lookup_findOrInsert_of_ne g hne]
  congr 1
  exact funext (g.record_findOrInsert name)

end Health.Registry

/-! ## Footprints -/

/-- What is shared about a job: its record, if it has one, and its metrics, if there are any. -/
structure Footprint where
  record : Option Health.Record
  series : Option Series

namespace Supervisor

/-- The record and the metrics of a job. -/
def footprint (s : Supervisor) (name : String) : Footprint :=
  ⟨s.registry.recordOf? name, s.metrics.jobs.get? name⟩

/-- One supervisor becomes another, and at most the footprint of a job changes. -/
structure Touches (name : String) (s s' : Supervisor) : Prop where
  leads : s.Leads s'
  others : ∀ other, name ≠ other → s'.footprint other = s.footprint other

variable {s s' : Supervisor} {name : String}

theorem touches_of_eq (hregistry : s'.registry = s.registry) (hmetrics : s'.metrics = s.metrics) :
    s.Touches name s' := by
  refine ⟨leads_of_registry_eq hregistry, fun other _ => ?_⟩
  rw [footprint, footprint, hregistry, hmetrics]

theorem touches_of_findOrInsert (hregistry : s'.registry = (s.registry.findOrInsert name).2)
    (hmetrics : s'.metrics = s.metrics) : s.Touches name s' := by
  refine ⟨?_, fun other hne => ?_⟩
  · rw [Leads, hregistry]
    exact s.registry.leads_findOrInsert name
  · rw [footprint, footprint, hregistry, hmetrics,
      Health.Registry.recordOf?_findOrInsert_of_ne _ hne]

theorem touches_of_perform {id : RecordId} {op : Operation} (hs : s.registry.Separate)
    (hid : s.registry.lookup name = some id)
    (hregistry : s'.registry = s.registry.perform id op) (hmetrics : s'.metrics = s.metrics) :
    s.Touches name s' := by
  refine ⟨?_, fun other hne => ?_⟩
  · rw [Leads, hregistry]
    exact s.registry.leads_perform id op
  · rw [footprint, footprint, hregistry, hmetrics,
      Health.Registry.recordOf?_perform_of_ne hs hid hne]

theorem footprint_perform (hs : s.registry.WellFormed) {id : RecordId}
    (hid : s.registry.lookup name = some id) (op : Operation) :
    (s.perform id op).footprint name =
      { s.footprint name with record := (s.footprint name).record.map op.apply } := by
  rw [footprint, registry_perform, Health.Registry.recordOf?_perform_self hs hid]
  rfl

theorem touches_of_metrics (hregistry : s'.registry = s.registry)
    (hmetrics : ∀ other, name ≠ other →
      s'.metrics.jobs.get? other = s.metrics.jobs.get? other) : s.Touches name s' := by
  refine ⟨leads_of_registry_eq hregistry, fun other hne => ?_⟩
  rw [footprint, footprint, hregistry, hmetrics other hne]

end Supervisor

namespace Metrics

variable (m : Metrics) {job other : String}

theorem get?_recordRun_self (o : Log.Outcome) :
    (m.recordRun job o).jobs.get? job =
      some (((m.jobs.get? job).getD Series.zero).countRun o) :=
  NameMap.get?_insert_self _ _ _

theorem get?_recordRun_of_ne (hne : job ≠ other) (o : Log.Outcome) :
    (m.recordRun job o).jobs.get? other = m.jobs.get? other :=
  NameMap.get?_insert_of_ne _ hne _

theorem get?_recordHealth_self (healthy : Bool) :
    (m.recordHealth job healthy).jobs.get? job =
      some { (m.jobs.get? job).getD Series.zero with health := some healthy } :=
  NameMap.get?_insert_self _ _ _

theorem get?_recordHealth_of_ne (hne : job ≠ other) (healthy : Bool) :
    (m.recordHealth job healthy).jobs.get? other = m.jobs.get? other :=
  NameMap.get?_insert_of_ne _ hne _

end Metrics

theorem Supervisor.ensureRecord_of_lookup {s : Supervisor} {name : String} {id : RecordId}
    (h : s.registry.lookup name = some id) : s.ensureRecord name = (id, s) := by
  simp [ensureRecord, Health.Registry.getOrCreate, h]

/-! ## Steps of a stage -/

namespace Stage

variable {job : Descriptor} {stage : Stage} {v v' : Supervisor}

/-- A stage with another place of the record. -/
def relocate (id : RecordId) : Stage → Stage
  | .fresh => .fresh
  | .missed => .missed
  | .placed _ => .placed id
  | .entered r => .entered { r with record := id }
  | .running r => .running { r with record := id }
  | .ended r failure => .ended { r with record := id } failure
  | .marked r failure => .marked { r with record := id } failure
  | .judged r elapsed outcome => .judged { r with record := id } elapsed outcome
  | .healed r outcome => .healed { r with record := id } outcome
  | .counted r => .counted { r with record := id }
  | .seen r healthy => .seen { r with record := id } healthy
  | .shown => .shown
  | .returned => .returned

/-- What the next step does to the footprint of the job. -/
def effect (job : Descriptor) (stage : Stage) (v : Supervisor) (f : Footprint) : Footprint where
  record :=
    match stage, (stage.change? job v).map Prod.snd with
    | .missed, _ => some (f.record.getD Health.Record.pristine)
    | _, some op => f.record.map op.apply
    | _, none => f.record
  series :=
    match stage with
    | .healed _ outcome => some ((f.series.getD Series.zero).countRun outcome)
    | .seen _ healthy => some { f.series.getD Series.zero with health := some healthy }
    | _ => f.series

/-- A step leaves the footprints of other jobs alone. -/
theorem touches_advance (hv : v.registry.Separate)
    (hplace : ∀ id, stage.place? = some id → v.registry.lookup job.name = some id) :
    v.Touches job.name (stage.advance job v).2 := by
  have hmetrics := metrics_advance job stage v
  cases hchange : stage.change? job v with
  | some change =>
      obtain ⟨id, op⟩ := change
      refine Supervisor.touches_of_perform hv (hplace id (place?_of_change? hchange))
        (registry_advance_of_change? hchange) ?_
      cases stage with
      | healed r outcome | seen r healthy => contradiction
      | _ => exact hmetrics
  | none =>
      have hkept := registry_advance_of_change?_eq_none hchange
      cases stage with
      | missed => exact Supervisor.touches_of_findOrInsert (registry_advance job .missed v) hmetrics
      | healed r outcome =>
          refine Supervisor.touches_of_metrics (hkept (by simp)) fun other hne => ?_
          rw [hmetrics]
          exact Metrics.get?_recordRun_of_ne _ hne outcome
      | seen r healthy =>
          refine Supervisor.touches_of_metrics (hkept (by simp)) fun other hne => ?_
          rw [hmetrics]
          exact Metrics.get?_recordHealth_of_ne _ hne healthy
      | _ => exact Supervisor.touches_of_eq (hkept (by simp)) hmetrics

theorem record_effect_of_change? {id : RecordId} {op : Operation}
    (h : stage.change? job v = some (id, op)) (f : Footprint) :
    (stage.effect job v f).record = f.record.map op.apply := by
  cases stage with
  | missed => contradiction
  | _ => simp only [effect, h, Option.map_some]

theorem record_effect_of_change?_eq_none (h : stage.change? job v = none) (hne : stage ≠ .missed)
    (f : Footprint) : (stage.effect job v f).record = f.record := by
  cases stage with
  | missed => exact absurd rfl hne
  | _ => simp only [effect, h, Option.map_none]

/-- **What a step does to the footprint of its job** is read off the footprint alone. -/
theorem footprint_advance (hv : v.registry.WellFormed)
    (hplace : ∀ id, stage.place? = some id → v.registry.lookup job.name = some id) :
    (stage.advance job v).2.footprint job.name = stage.effect job v (v.footprint job.name) := by
  have hrecord : (stage.advance job v).2.registry.recordOf? job.name =
      (stage.effect job v (v.footprint job.name)).record := by
    cases hchange : stage.change? job v with
    | some change =>
        obtain ⟨id, op⟩ := change
        rw [registry_advance_of_change? hchange, record_effect_of_change? hchange]
        exact Health.Registry.recordOf?_perform_self hv (hplace id (place?_of_change? hchange)) op
    | none =>
        by_cases hmissed : stage = .missed
        · subst hmissed
          rw [registry_advance]
          exact v.registry.recordOf?_findOrInsert_self job.name
        · rw [registry_advance_of_change?_eq_none hchange hmissed,
            record_effect_of_change?_eq_none hchange hmissed]
          rfl
  have hseries : (stage.advance job v).2.metrics.jobs.get? job.name =
      (stage.effect job v (v.footprint job.name)).series := by
    rw [metrics_advance]
    cases stage with
    | healed r outcome => exact Metrics.get?_recordRun_self _ outcome
    | seen r healthy => exact Metrics.get?_recordHealth_self _ healthy
    | _ => rfl
  rw [Supervisor.footprint, hrecord, hseries]

/-! ### Runs whose records lie at different places -/

variable {id : RecordId}

theorem running_of_relocate {r : Run} (h : stage.relocate id = .running r) :
    ∃ r, stage = .running r := by
  cases stage with
  | running r => exact ⟨r, rfl⟩
  | _ => contradiction

/-- What a step does to the footprint does not depend on the place of the record. -/
theorem effect_relocate (hclock : v'.clock = v.clock) (f : Footprint) :
    (stage.relocate id).effect job v' f = stage.effect job v f := by
  cases stage with
  | ended r failure => cases failure <;> rfl
  | marked r failure =>
      by_cases hover : job.budget < v.clock.since r.started <;>
        simp [effect, relocate, change?, hclock, hover]
  | _ => rfl

/-- What a step leaves a run for itself does not depend on the place of the record. -/
theorem of_advance_relocate (hown : RunLocal.of v' = RunLocal.of v) :
    RunLocal.of ((stage.relocate id).advance job v').2 = RunLocal.of (stage.advance job v).2 := by
  obtain ⟨hthread, hclock, hdrawn⟩ := RunLocal.mk.inj hown
  cases stage with
  | fresh =>
      have hsame (s : Supervisor) : (advance job .fresh s).2 = s := by
        simp only [advance]
        split <;> rfl
      rw [relocate, hsame, hsame, hown]
  | missed =>
      have hsame (s : Supervisor) : RunLocal.of (advance job .missed s).2 = RunLocal.of s := by
        simp only [advance]
        split <;> rfl
      rw [relocate, hsame, hsame, hown]
  | placed place =>
      by_cases hdraws : v.thread.context.drawsFresh none = true <;>
        simp [advance, relocate, Supervisor.enterScope, Supervisor.freshIdentifier,
          Supervisor.withContext, Supervisor.openSpan, Supervisor.correlation, RunLocal.of,
          hthread, hclock, hdrawn, hdraws]
  | ended r failure => cases failure <;> exact hown
  | marked r failure =>
      have hsame (r : Run) (s : Supervisor) :
          RunLocal.of (advance job (.marked r failure) s).2 = RunLocal.of s := by
        simp only [advance]
        split <;> rfl
      rw [relocate, hsame, hsame, hown]
  | shown =>
      simp [advance, relocate, Run.leave, Supervisor.closeSpan, Supervisor.exitScope,
        Supervisor.withContext, RunLocal.of, hthread, hclock, hdrawn]
  | _ => exact hown

/-- A step comes to the same stage, but for the place of the record. -/
theorem exists_fst_advance_relocate (hown : RunLocal.of v' = RunLocal.of v)
    (hfoot : v'.footprint job.name = v.footprint job.name)
    (hplace : ∀ id, stage.place? = some id → v.registry.lookup job.name = some id)
    (hplace' : ∀ id', (stage.relocate id).place? = some id' →
      v'.registry.lookup job.name = some id') :
    ∃ id', ((stage.relocate id).advance job v').1 = (stage.advance job v).1.relocate id' := by
  obtain ⟨hthread, hclock, hdrawn⟩ := RunLocal.mk.inj hown
  have hrecord : v'.registry.recordOf? job.name = v.registry.recordOf? job.name :=
    congrArg Footprint.record hfoot
  cases stage with
  | fresh =>
      cases hlookup : v.registry.lookup job.name with
      | some place =>
          rw [Health.Registry.recordOf?_of_lookup hlookup] at hrecord
          obtain ⟨place', hlookup', -⟩ := Option.map_eq_some_iff.1 hrecord
          exact ⟨place', by simp only [relocate, advance, hlookup, hlookup']⟩
      | none =>
          rw [Health.Registry.recordOf?, Health.Registry.recordOf?, hlookup, Option.map_none,
            Option.map_eq_none_iff] at hrecord
          exact ⟨id, by simp only [relocate, advance, hlookup, hrecord]⟩
  | missed => exact ⟨(v'.registry.findOrInsert job.name).1.id, rfl⟩
  | placed place =>
      refine ⟨id, ?_⟩
      by_cases hdraws : v.thread.context.drawsFresh none = true <;>
        simp [advance, relocate, Supervisor.enterScope, Supervisor.freshIdentifier,
          Supervisor.withContext, Supervisor.correlation, hthread, hclock, hdrawn, hdraws]
  | marked r failure =>
      refine ⟨id, ?_⟩
      simp only [relocate, advance, hclock]
  | counted r =>
      have hsame : v'.record id = v.record r.record := by
        rw [Health.Registry.recordOf?_of_lookup (hplace r.record rfl),
          Health.Registry.recordOf?_of_lookup (hplace' id rfl)] at hrecord
        exact Option.some.inj hrecord
      refine ⟨id, ?_⟩
      simp only [relocate, advance, hsame]
  | _ => exact ⟨id, rfl⟩

end Stage

/-! ## Steps of a worker -/

namespace Script

variable {α : Type} {name : String} {v v' : Supervisor}

/-- A body leaves the footprints of other jobs alone. -/
theorem touches_step (script : Script α) (hv : v.registry.Separate) {id : RecordId}
    (hid : v.registry.lookup name = some id) : v.Touches name (script.step name v).2 := by
  have hfound := Supervisor.ensureRecord_of_lookup hid
  cases script with
  | done e => exact Supervisor.touches_of_eq rfl rfl
  | change op next =>
      simp only [step, hfound]
      exact Supervisor.touches_of_perform hv hid rfl rfl
  | read next =>
      simp only [step, hfound]
      exact Supervisor.touches_of_eq rfl rfl
  | own f next => exact Supervisor.touches_of_eq rfl rfl

/-- What a body does next, and what it does to the footprint of its job, depends on nothing but
that and what the run has for itself. -/
theorem alike_step (script : Script α) (hv : v.registry.WellFormed) (hv' : v'.registry.WellFormed)
    (hown : RunLocal.of v' = RunLocal.of v) (hfoot : v'.footprint name = v.footprint name)
    {id id' : RecordId} (hid : v.registry.lookup name = some id)
    (hid' : v'.registry.lookup name = some id') :
    (script.step name v').1 = (script.step name v).1 ∧
      RunLocal.of (script.step name v').2 = RunLocal.of (script.step name v).2 ∧
      (script.step name v').2.footprint name = (script.step name v).2.footprint name := by
  have hfound := Supervisor.ensureRecord_of_lookup hid
  have hfound' := Supervisor.ensureRecord_of_lookup hid'
  have hrecord : v'.record id' = v.record id := by
    have hsame := congrArg Footprint.record hfoot
    simp only [Supervisor.footprint, Health.Registry.recordOf?_of_lookup hid,
      Health.Registry.recordOf?_of_lookup hid'] at hsame
    exact Option.some.inj hsame
  cases script with
  | done e => exact ⟨rfl, hown, hfoot⟩
  | change op next =>
      simp only [step, hfound, hfound', hrecord, true_and]
      refine ⟨hown, ?_⟩
      rw [Supervisor.footprint_perform hv' hid', Supervisor.footprint_perform hv hid, hfoot]
  | read next =>
      simp only [step, hfound, hfound', hrecord, true_and]
      exact ⟨hown, hfoot⟩
  | own f next =>
      simp only [step, hown, true_and]
      exact ⟨rfl, hfoot⟩

end Script

namespace Worker

variable {α : Type} {w w' : Worker α} {s s' : Supervisor}

/-- The place that the run knows is that of the record of its job. -/
def Placed (w : Worker α) (s : Supervisor) : Prop :=
  ∀ id, w.stage.place? = some id → s.registry.lookup w.job.name = some id

theorem Placed.leads (h : w.Placed s) (hs : s.Leads s') : w.Placed s' := by
  intro id hid
  obtain ⟨calls, hcalls⟩ := hs
  rw [hcalls]
  exact Health.Registry.lookup_after (h id hid) calls

/-- A step leaves the footprints of other jobs alone. -/
theorem touches_step (hs : s.registry.Separate) (hw : w.Placed s) :
    s.Touches w.job.name (w.step s).2 := by
  have hview : (w.own.view s).Touches w.job.name (w.advance (w.own.view s)).2 := by
    by_cases hrunning : ∃ r, w.stage = .running r
    · obtain ⟨r, hr⟩ := hrunning
      have hid : (w.own.view s).registry.lookup w.job.name = some r.record :=
        hw r.record (by rw [hr]; rfl)
      cases hscript : w.script with
      | done e =>
          rw [advance_running_done hr hscript]
          exact Supervisor.touches_of_eq rfl rfl
      | _ =>
          rw [advance_running hr (by simp [hscript])]
          exact Script.touches_step _ hs hid
    · rw [advance_of_not_running fun r hr => hrunning ⟨r, hr⟩]
      exact Stage.touches_advance hs hw
  exact ⟨hview.leads, hview.others⟩

theorem job_step (w : Worker α) (s : Supervisor) : (w.step s).1.job = w.job := by
  simp only [step, advance]
  split <;> rfl

/-- A run keeps to the record of its job. -/
theorem Placed.step (hw : w.Placed s) (hs : s.registry.Separate) :
    (w.step s).1.Placed (w.step s).2 := by
  have hkept := hw.leads (touches_step hs hw).leads
  intro id hid
  rw [job_step]
  by_cases hrunning : ∃ r, w.stage = .running r
  · -- The body does not change the place.
    obtain ⟨r, hr⟩ := hrunning
    refine hkept id (Eq.trans ?_ hid)
    simp only [Worker.step]
    cases hscript : w.script with
    | done e => rw [advance_running_done hr hscript, hr]; rfl
    | _ => rw [advance_running hr (by simp [hscript])]
  · have hadvance := advance_of_not_running (v := w.own.view s) fun r hr => hrunning ⟨r, hr⟩
    simp only [Worker.step, hadvance] at hid
    rcases Stage.place?_advance hid with hplace | hlookup
    · exact hkept id hplace
    · simp only [Worker.step, hadvance]
      exact hlookup

/-- A run whose record lies at another place. -/
def relocate (id : RecordId) (w : Worker α) : Worker α :=
  { w with stage := w.stage.relocate id }

/-- Two runs are alike: they are the same but for the places of their records, and they have the
same footprint. -/
structure Alike (w : Worker α) (s : Supervisor) (w' : Worker α) (s' : Supervisor) : Prop where
  worker : ∃ id, w' = w.relocate id
  footprint : s'.footprint w.job.name = s.footprint w.job.name

/-- What a run does to the footprint of its job and to what it has for itself is the same for
runs that are alike. -/
theorem Alike.advance {v v' : Supervisor} (h : w.Alike v w' v') (hv : v.registry.Reachable)
    (hv' : v'.registry.Reachable) (hw : w.Placed v) (hw' : w'.Placed v')
    (hown : RunLocal.of v' = RunLocal.of v) :
    (w.advance v).1.Alike (w.advance v).2 (w'.advance v').1 (w'.advance v').2 ∧
      RunLocal.of (w'.advance v').2 = RunLocal.of (w.advance v).2 := by
  obtain ⟨⟨id, rfl⟩, hfoot⟩ := h
  by_cases hrunning : ∃ r, w.stage = .running r
  · obtain ⟨r, hr⟩ := hrunning
    have hr' : (w.relocate id).stage = .running { r with record := id } := by
      rw [relocate, hr]
      rfl
    have hid := hw r.record (by rw [hr]; rfl)
    have hid' := hw' id (by rw [hr']; rfl)
    cases hscript : w.script with
    | done e =>
        rw [advance_running_done hr hscript, advance_running_done hr' hscript]
        exact ⟨⟨⟨id, rfl⟩, hfoot⟩, hown⟩
    | _ =>
        have hne : ∀ e, w.script ≠ .done e := by simp [hscript]
        obtain ⟨hscripts, howns, hfoots⟩ := Script.alike_step w.script hv.wellFormed
          hv'.wellFormed hown hfoot hid hid'
        rw [advance_running hr hne, advance_running hr' hne]
        exact ⟨⟨⟨id, congrArg (fun script => relocate id { w with script := script }) hscripts⟩,
          hfoots⟩, howns⟩
  · have hnot : ∀ r, w.stage ≠ .running r := fun r hr => hrunning ⟨r, hr⟩
    have hnot' : ∀ r, (w.relocate id).stage ≠ .running r := fun r hr =>
      hrunning (Stage.running_of_relocate hr)
    have hplace' : ∀ id', (w.stage.relocate id).place? = some id' →
      v'.registry.lookup w.job.name = some id' := hw'
    obtain ⟨id', hstage⟩ := Stage.exists_fst_advance_relocate hown hfoot hw hplace'
    rw [advance_of_not_running hnot, advance_of_not_running hnot']
    refine ⟨⟨⟨id', ?_⟩, ?_⟩, Stage.of_advance_relocate hown⟩
    · exact congrArg (fun stage => ({ w with stage := stage } : Worker α)) hstage
    · have hclock := congrArg RunLocal.clock hown
      exact (Stage.footprint_advance hv'.wellFormed hw').trans
        ((congrArg _ hfoot).trans ((Stage.effect_relocate hclock _).trans
          (Stage.footprint_advance hv.wellFormed hw).symm))

/-- **Runs that are alike stay alike.** -/
theorem Alike.step (h : w.Alike s w' s') (hs : s.registry.Reachable) (hs' : s'.registry.Reachable)
    (hw : w.Placed s) (hw' : w'.Placed s') :
    (w.step s).1.Alike (w.step s).2 (w'.step s').1 (w'.step s').2 := by
  have hown : w'.own = w.own := by
    obtain ⟨⟨id, rfl⟩, -⟩ := h
    rfl
  have hviews : w.Alike (w.own.view s) w' (w'.own.view s') := ⟨h.worker, h.footprint⟩
  obtain ⟨⟨⟨id, hworker⟩, hfoot⟩, howns⟩ := hviews.advance hs hs' hw hw' hown
  refine ⟨⟨id, ?_⟩, ?_⟩
  · simp only [Worker.step, hworker, howns]
    rfl
  · exact hfoot

end Worker

end JobSupervisor
