import JobSupervisor.Proofs.RunCounts

/-!
# The health that runs show

A run shows the health that it read after its healing.  Between the reading and the showing other
changes can come, and so can other runs of the job, which show what they have read.  But as long
as the last change of a record came from a run beside which there was no other of its job, no run
of the job has read anything else than what the record is; and once that run has shown a health,
it is that of the record, whichever runs show theirs afterwards.

## Main definitions

* `RunLedger.Left` — what was read and shown is what the record is.
* `RunLedger.Tracked` — that is so for every record whose last change came from such a run.
* `RunLedger.Tracked.run` — it stays so whatever happens.
-/

namespace JobSupervisor

open Health (RecordId Operation)

namespace RunLedger

variable {N : ChangeNotion} {l : RunLedger} {i : Nat} {r : StartedRun}

/-- The record is the one of the job of a run. -/
def IsOf (l : RunLedger) (id : RecordId) (r : StartedRun) : Prop :=
  l.supervisor.registry.lookup r.job.name = some id

/-- What a run that was not disturbed by others of its job has left: whoever has read the health
of its record has read what it is, and if the run has shown a health, that is shown. -/
structure Left (l : RunLedger) (id : RecordId) (r : StartedRun) : Prop where
  read : ∀ r' ∈ l.runs, r'.job.name = r.job.name → ∀ healthy, r'.stage.reading? = some healthy →
    (l.supervisor.record id).isHealthy = healthy
  shown : r.stage.hasShown = true →
    (l.series r.job.name).health = some (l.supervisor.record id).isHealthy

/-- The runs keep to the records of their jobs, runs that are alone have no other beside them,
and what the last change of a record has left is what was read and shown. -/
structure Tracked (l : RunLedger) : Prop where
  reachable : l.supervisor.registry.Reachable
  placed : ∀ r ∈ l.runs, ∀ id, r.stage.place? = some id → l.IsOf id r
  alone : ∀ (i j : Nat) (r r' : StartedRun), l.runs[i]? = some r → l.runs[j]? = some r' →
    i ≠ j → r.alone = true → r.stage.isReturned = false → r'.stage.isReturned = false →
      r'.job.name ≠ r.job.name
  source : ∀ id i, l.lastChange? id = some (.run i) → ∃ r, l.runs[i]? = some r ∧ l.IsOf id r
  left : ∀ id i r, l.lastChange? id = some (.run i) → l.runs[i]? = some r → r.alone = true →
    l.Left id r

theorem tracked_initial {s : Supervisor} (h : s.registry.Reachable) : (initial s).Tracked where
  reachable := h
  placed := by simp [initial]
  alone := by simp [initial]
  source := by simp [initial, lastChange?]
  left := by simp [initial, lastChange?]

/-- Records may be added, and records and metrics may change, as long as no health does. -/
theorem Tracked.grow (h : l.Tracked) {l' : RunLedger} (hruns : l'.runs = l.runs)
    (hchanges : l'.changes = l.changes)
    (hleads : l.supervisor.registry.Leads l'.supervisor.registry)
    (hrecord : ∀ id, (l'.supervisor.record id).isHealthy = (l.supervisor.record id).isHealthy)
    (hhealth : ∀ name, (l'.series name).health = (l.series name).health) : l'.Tracked := by
  have hof {id : RecordId} {r : StartedRun} (hid : l.IsOf id r) : l'.IsOf id r := by
    obtain ⟨calls, hcalls⟩ := hleads
    rw [IsOf, hcalls]
    exact Health.Registry.lookup_after hid calls
  have hlast (id : RecordId) : l'.lastChange? id = l.lastChange? id := by
    rw [lastChange?, hchanges, lastChange?]
  refine ⟨h.reachable.leads hleads, ?_, ?_, ?_, ?_⟩
  · rw [hruns]
    exact fun r hr id hid => hof (h.placed r hr id hid)
  · rw [hruns]
    exact h.alone
  · intro id i hsource
    rw [hlast] at hsource
    obtain ⟨r, hr, hid⟩ := h.source id i hsource
    exact ⟨r, hruns ▸ hr, hof hid⟩
  · intro id i r hsource hr halone
    rw [hlast] at hsource
    rw [hruns] at hr
    obtain ⟨hread, hshown⟩ := h.left id i r hsource hr halone
    refine ⟨?_, ?_⟩
    · rw [hruns, hrecord]
      exact hread
    · rw [hrecord, hhealth]
      exact hshown

theorem Tracked.of_registry_eq (h : l.Tracked) {l' : RunLedger} (hruns : l'.runs = l.runs)
    (hchanges : l'.changes = l.changes)
    (hregistry : l'.supervisor.registry = l.supervisor.registry)
    (hhealth : ∀ name, (l'.series name).health = (l.series name).health) : l'.Tracked := by
  refine h.grow hruns hchanges ?_ (fun id => ?_) hhealth
  · rw [hregistry]
    exact .refl _
  · rw [Supervisor.record, hregistry]
    rfl

/-- An operation that does not count leaves the health of all records as it is. -/
theorem isHealthy_perform {s : Supervisor} {id : RecordId} {op : Operation}
    (h : N.counts (s.record id) op = false) (other : RecordId) :
    ((s.perform id op).record other).isHealthy = (s.record other).isHealthy := by
  by_cases hne : id = other
  · subst hne
    by_cases hlt : id < s.registry.cells.length
    · have hself : (s.perform id op).record id = op.apply (s.record id) :=
        s.registry.record_perform_self hlt op
      rw [hself]
      refine Decidable.byContradiction fun hturned => ?_
      rw [N.turns _ _ hturned] at h
      contradiction
    · have hout : (s.registry.perform id op).cells.length ≤ id := by
        simpa [Health.Registry.perform] using hlt
      have hafter : (s.perform id op).record id = Health.Record.pristine :=
        Health.Registry.record_of_length_le hout
      have hbefore : s.record id = Health.Record.pristine :=
        Health.Registry.record_of_length_le (Nat.le_of_not_lt hlt)
      rw [hafter, hbefore]
  · have hother : (s.perform id op).record other = s.record other :=
      s.registry.record_perform_of_ne hne op
    rw [hother]

/-- A run whose record is known and needed has not shown anything and is not over. -/
theorem of_place? {stage : Stage} {id : RecordId} (h : stage.place? = some id) :
    stage.isReturned = false ∧ stage.hasShown = false := by
  cases stage with
  | shown | returned => contradiction
  | _ => exact ⟨rfl, rfl⟩

theorem of_reading? {stage : Stage} {healthy : Bool} (h : stage.reading? = some healthy) :
    stage.isReturned = false := by
  cases stage with
  | returned => contradiction
  | _ => rfl

/-- A run that changes its record has not read the health yet. -/
theorem reading?_of_change? {job : Descriptor} {stage : Stage} {s : Supervisor}
    {change : RecordId × Operation} (h : stage.change? job s = some change) :
    stage.reading? = none := by
  cases stage with
  | seen r healthy => contradiction
  | _ => rfl

/-- The last change of a record after one that counts. -/
theorem lastChange?_change {source : ChangeSource} {id : RecordId} {op : Operation}
    (hcounts : N.counts (l.supervisor.record id) op = true) (other : RecordId) :
    (l.change N source id op).lastChange? other =
      if id = other then some source else l.lastChange? other := by
  rw [lastChange?, RunLedger.change, if_pos hcounts, List.find?_cons]
  by_cases hother : id = other
  · simp [hother]
  · simp [hother, lastChange?]

/-- **A change keeps the account**, if a run that it comes from is in progress and has not read
the health yet. -/
theorem Tracked.change (h : l.Tracked) {source : ChangeSource} {id : RecordId} {op : Operation}
    (hsource : ∀ i, source = .run i → ∃ r, l.runs[i]? = some r ∧ r.stage.place? = some id ∧
      r.stage.reading? = none) : (l.change N source id op).Tracked := by
  have hleads := l.supervisor.registry.leads_perform id op
  by_cases hcounts : N.counts (l.supervisor.record id) op = true
  · refine ⟨h.reachable.leads hleads, h.placed, h.alone, ?_, ?_⟩
    · intro other i hrun
      rw [lastChange?_change hcounts] at hrun
      split at hrun
      · rename_i hother
        subst hother
        obtain ⟨r, hr, hplace, -⟩ := hsource i (Option.some.inj hrun)
        exact ⟨r, hr, h.placed r (List.mem_of_getElem? hr) id hplace⟩
      · exact h.source other i hrun
    · intro other i r hrun hr halone
      rw [lastChange?_change hcounts] at hrun
      split at hrun
      · -- The run is in progress, so that no other run of the job is.
        rename_i hother
        subst hother
        obtain ⟨r', hr', hplace, hreading⟩ := hsource i (Option.some.inj hrun)
        obtain rfl := Option.some.inj (hr'.symm.trans hr)
        obtain ⟨hbusy, hnotShown⟩ := of_place? hplace
        refine ⟨fun r'' hr'' hname healthy hhealthy => ?_, fun hshown => ?_⟩
        · obtain ⟨j, hj⟩ := List.mem_iff_getElem?.1 hr''
          by_cases hij : i = j
          · subst hij
            obtain rfl := Option.some.inj (hr.symm.trans hj)
            rw [hreading] at hhealthy
            contradiction
          · exact absurd hname (h.alone i j r' r'' hr hj hij halone hbusy (of_reading? hhealthy))
        · rw [hnotShown] at hshown
          contradiction
      · rename_i hother
        obtain ⟨hread, hshown⟩ := h.left other i r hrun hr halone
        have hrecord : (l.supervisor.perform id op).record other = l.supervisor.record other :=
          l.supervisor.registry.record_perform_of_ne hother op
        refine ⟨?_, ?_⟩
        · rw [RunLedger.change, hrecord]
          exact hread
        · rw [RunLedger.change, hrecord]
          exact hshown
  · have hchanges : (l.change N source id op).changes = l.changes := if_neg hcounts
    have hsame := isHealthy_perform (Bool.eq_false_iff.2 hcounts)
    exact h.grow rfl hchanges hleads hsame fun _ => rfl

/-- The health that a run has read is shown. -/
theorem Tracked.show (h : l.Tracked) (hr : r ∈ l.runs) {healthy : Bool}
    (hreading : r.stage.reading? = some healthy) {s : Supervisor}
    (hregistry : s.registry = l.supervisor.registry)
    (hmetrics : s.metrics = l.supervisor.metrics.recordHealth r.job.name healthy) :
    Tracked { l with supervisor := s } := by
  have hrecord (id : RecordId) : s.record id = l.supervisor.record id := by
    rw [Supervisor.record, hregistry]
    rfl
  have hof {id : RecordId} {r : StartedRun} (hid : l.IsOf id r) :
      IsOf { l with supervisor := s } id r := by
    rw [IsOf, hregistry]
    exact hid
  refine ⟨?_, fun r hr id hid => hof (h.placed r hr id hid), h.alone, ?_, ?_⟩
  · rw [hregistry]
    exact h.reachable
  · intro id i hsource
    obtain ⟨r, hr, hid⟩ := h.source id i hsource
    exact ⟨r, hr, hof hid⟩
  · intro id i r' hsource hr' halone
    obtain ⟨hread, hshown⟩ := h.left id i r' hsource hr' halone
    refine ⟨?_, fun hstage => ?_⟩
    · rw [hrecord]
      exact hread
    · rw [hrecord, series, hmetrics, Metrics.series_recordHealth]
      split
      · rename_i hname
        rw [hread r hr hname healthy hreading]
      · exact hshown hstage

/-- What the next step of a run does to the supervisor keeps the account. -/
theorem Tracked.note_advance (h : l.Tracked) (hi : l.runs[i]? = some r) :
    Tracked { l.note N i r with supervisor := (r.stage.advance r.job l.supervisor).2 } := by
  have hmetrics := Stage.metrics_advance r.job r.stage l.supervisor
  cases hchange : r.stage.change? r.job l.supervisor with
  | some change =>
      obtain ⟨id, op⟩ := change
      have hregistry := Stage.registry_advance_of_change? hchange
      have hplace := Stage.place?_of_change? hchange
      have hchanged : (l.change N (.run i) id op).Tracked := h.change fun j hj => by
        obtain rfl : i = j := ChangeSource.run.inj hj
        exact ⟨r, hi, hplace, reading?_of_change? hchange⟩
      have hnote : l.note N i r = l.change N (.run i) id op := by
        simp only [note, hchange]
      rw [hnote]
      refine hchanged.of_registry_eq rfl rfl hregistry fun name => ?_
      rw [series, hmetrics]
      cases hstage : r.stage with
      | healed x outcome | seen x healthy =>
          rw [hstage] at hchange
          contradiction
      | _ => rfl
  | none =>
      have hnote : l.note N i r = l := by
        simp only [note, hchange]
      rw [hnote]
      have hkeep (hne : r.stage ≠ .missed) (hhealth : ∀ name,
          ((r.stage.advance r.job l.supervisor).2.metrics.series name).health =
            (l.series name).health) :
          Tracked { l with supervisor := (r.stage.advance r.job l.supervisor).2 } :=
        h.of_registry_eq rfl rfl (Stage.registry_advance_of_change?_eq_none hchange hne) hhealth
      cases hstage : r.stage with
      | missed =>
          rw [hstage] at hmetrics
          have hregistry := Stage.registry_advance r.job .missed l.supervisor
          refine h.grow rfl rfl ?_ (fun id => ?_) fun name => ?_
          · rw [hregistry]
            exact Health.Registry.leads_findOrInsert _ _
          · rw [Supervisor.record, hregistry]
            exact congrArg _ (Health.Registry.record_findOrInsert _ _ _)
          · rw [series, hmetrics]
            rfl
      | seen x healthy =>
          rw [hstage] at hmetrics
          exact h.show (List.mem_of_getElem? hi) (by rw [hstage]; rfl) rfl hmetrics
      | healed x outcome =>
          rw [hstage] at hmetrics hkeep
          refine hkeep (by simp) fun name => ?_
          rw [hmetrics, Metrics.series_recordRun]
          split
          · rename_i hname
            subst hname
            cases outcome <;> rfl
          · rfl
      | _ =>
          rw [hstage] at hmetrics hkeep
          exact hkeep (by simp) fun name => by rw [hmetrics]; rfl

/-- A run comes to another stage, after it has read what the record is, or after what it has read
was shown. -/
theorem Tracked.setStage (h : l.Tracked) (hi : l.runs[i]? = some r) (stage : Stage)
    (hplaced : ∀ id, stage.place? = some id → l.IsOf id r)
    (hreturned : r.stage.isReturned = true → stage.isReturned = true)
    (hread : ∀ healthy, stage.reading? = some healthy → ∀ id, l.IsOf id r →
      (l.supervisor.record id).isHealthy = healthy)
    (hshown : stage.hasShown = true → r.stage.hasShown = true ∨
      ∃ healthy, r.stage.reading? = some healthy ∧
        (l.series r.job.name).health = some healthy) :
    Tracked { l with runs := l.runs.set i { r with stage := stage } } := by
  let set := l.runs.set i { r with stage := stage }
  have hself : set[i]? = some { r with stage := stage } := by
    rw [List.getElem?_set_self (List.getElem?_eq_some_iff.1 hi).1]
  have hother {j : Nat} (hij : i ≠ j) : set[j]? = l.runs[j]? := List.getElem?_set_ne hij
  -- Every run is what it was before, apart from its stage.
  have hbefore {j : Nat} {r' : StartedRun} (hr' : set[j]? = some r') :
      ∃ r₀, l.runs[j]? = some r₀ ∧ r'.job = r₀.job ∧ r'.alone = r₀.alone ∧
        (r'.stage.isReturned = false → r₀.stage.isReturned = false) := by
    by_cases hij : i = j
    · subst hij
      obtain rfl := Option.some.inj (hself.symm.trans hr')
      refine ⟨r, hi, rfl, rfl, fun hbusy => ?_⟩
      exact Bool.eq_false_iff.2 fun hover => Bool.eq_false_iff.1 hbusy (hreturned hover)
    · rw [hother hij] at hr'
      exact ⟨r', hr', rfl, rfl, id⟩
  refine ⟨h.reachable, ?_, ?_, ?_, ?_⟩
  · intro r' hr' id hid
    rcases List.mem_or_eq_of_mem_set hr' with hr' | rfl
    · exact h.placed r' hr' id hid
    · exact hplaced id hid
  · intro j k r' r'' hj hk hne halone hbusy hbusy'
    obtain ⟨r₀, hj₀, hjob, halone₀, hbusy₀⟩ := hbefore hj
    obtain ⟨r₁, hk₁, hjob', -, hbusy₁⟩ := hbefore hk
    rw [hjob, hjob']
    exact h.alone j k r₀ r₁ hj₀ hk₁ hne (halone₀ ▸ halone) (hbusy₀ hbusy) (hbusy₁ hbusy')
  · intro id j hsource
    obtain ⟨r₀, hr₀, hid⟩ := h.source id j hsource
    by_cases hij : i = j
    · subst hij
      obtain rfl := Option.some.inj (hi.symm.trans hr₀)
      exact ⟨_, hself, hid⟩
    · exact ⟨r₀, (hother hij).trans hr₀, hid⟩
  · intro id j r' hsource hr' halone
    obtain ⟨r₀, hr₀, hjob, halone₀, -⟩ := hbefore hr'
    have hleft := h.left id j r₀ hsource hr₀ (halone₀ ▸ halone)
    obtain ⟨r₁, hr₁, hid⟩ := h.source id j hsource
    obtain rfl := Option.some.inj (hr₀.symm.trans hr₁)
    refine ⟨fun r'' hr'' hname healthy hhealthy => ?_, fun hshows => ?_⟩
    · rcases List.mem_or_eq_of_mem_set hr'' with hr'' | rfl
      · exact hleft.read r'' hr'' (hname.trans (congrArg Descriptor.name hjob)) healthy hhealthy
      · refine hread healthy hhealthy id ?_
        rw [IsOf, hname, hjob]
        exact hid
    · rw [hjob]
      by_cases hij : i = j
      · subst hij
        obtain rfl := Option.some.inj (hself.symm.trans hr')
        obtain rfl := Option.some.inj (hi.symm.trans hr₀)
        rcases hshown hshows with hshown | ⟨healthy, hreading, hhealth⟩
        · exact hleft.shown hshown
        · have hsame := hleft.read r (List.mem_of_getElem? hi) rfl healthy hreading
          exact hhealth.trans (congrArg some hsame.symm)
      · obtain rfl := Option.some.inj (hr₀.symm.trans ((hother hij).symm.trans hr'))
        exact hleft.shown hshows

theorem Tracked.advance (h : l.Tracked) (hi : l.runs[i]? = some r) :
    (l.advance N i r).Tracked := by
  have hnoted := h.note_advance (N := N) hi
  rw [← l.runs_note N i r] at hi
  have hstage := hnoted.setStage hi (r.stage.advance r.job l.supervisor).1 ?_ ?_ ?_ ?_
  · rw [runs_note] at hstage
    exact hstage
  · intro id hplace
    rcases Stage.place?_advance hplace with hplace | hlookup
    · exact hnoted.placed r (List.mem_of_getElem? hi) id hplace
    · exact hlookup
  · intro hover
    cases hstage : r.stage with
    | returned => rfl
    | _ =>
        rw [hstage] at hover
        contradiction
  · intro healthy hreading id hid
    cases hstage : r.stage with
    | counted x =>
        rw [hstage] at hreading
        have hplace : r.stage.place? = some x.record := by rw [hstage]; rfl
        have hrecord := hnoted.placed r (List.mem_of_getElem? hi) x.record hplace
        obtain rfl := Option.some.inj (hrecord.symm.trans hid)
        exact Option.some.inj hreading
    | fresh =>
        rw [hstage] at hreading
        simp only [Stage.advance] at hreading
        split at hreading <;> contradiction
    | _ =>
        rw [hstage] at hreading
        contradiction
  · intro hshows
    cases hstage : r.stage with
    | seen x healthy =>
        refine .inr ⟨healthy, rfl, ?_⟩
        have hmetrics := Stage.metrics_advance r.job (.seen x healthy) l.supervisor
        exact (congrArg (fun m : Metrics => (m.series r.job.name).health) hmetrics).trans
          (Metrics.health_recordHealth _ _ _)
    | shown | returned => exact .inl rfl
    | fresh =>
        rw [hstage] at hshows
        simp only [Stage.advance] at hshows
        split at hshows <;> contradiction
    | _ =>
        rw [hstage] at hshows
        contradiction

/-- The run that starts is alone if no other run of its job is in progress. -/
theorem getElem?_start_cases {job : Descriptor} {scheduled : Bool}
    (hr : (l.start job scheduled).runs[i]? = some r) :
    (∃ r₀, l.runs[i]? = some r₀ ∧ r = r₀.join job.name) ∨
      (i = l.runs.length ∧
        r = ⟨job, scheduled, !l.runs.any (·.isBusy job.name), .fresh⟩) := by
  rw [RunLedger.start, List.getElem?_append] at hr
  split at hr
  · rw [List.getElem?_map, Option.map_eq_some_iff] at hr
    obtain ⟨r₀, hr₀, rfl⟩ := hr
    exact .inl ⟨r₀, hr₀, rfl⟩
  · rename_i hlength
    rw [List.length_map, List.getElem?_singleton] at hr
    rw [List.length_map] at hlength
    split at hr
    · exact .inr ⟨by omega, (Option.some.inj hr).symm⟩
    · contradiction

theorem getElem?_start (hr : l.runs[i]? = some r) (job : Descriptor) (scheduled : Bool) :
    (l.start job scheduled).runs[i]? = some (r.join job.name) := by
  have hlt : i < (l.runs.map (·.join job.name)).length := by
    rw [List.length_map]
    exact (List.getElem?_eq_some_iff.1 hr).1
  rw [RunLedger.start, List.getElem?_append_left hlt, List.getElem?_map, hr]
  rfl

/-- A run in progress that does not keep a job busy is one of another job. -/
theorem name_ne_of_not_isBusy {name : String} (hbusy : r.stage.isReturned = false)
    (hnot : r.isBusy name = false) : r.job.name ≠ name := by
  intro hname
  simp [StartedRun.isBusy, hbusy, hname] at hnot

/-- **The start of a run keeps the account**: the runs beside it are not alone any more. -/
theorem Tracked.start (h : l.Tracked) (job : Descriptor) (scheduled : Bool) :
    (l.start job scheduled).Tracked := by
  refine ⟨h.reachable, ?_, ?_, ?_, ?_⟩
  · intro r hr id hplace
    obtain ⟨j, hj⟩ := List.mem_iff_getElem?.1 hr
    rcases getElem?_start_cases hj with ⟨r₀, hr₀, rfl⟩ | ⟨-, rfl⟩
    · exact h.placed r₀ (List.mem_of_getElem? hr₀) id hplace
    · contradiction
  · intro i j r r' hr hr' hne halone hbusy hbusy'
    rcases getElem?_start_cases hr with ⟨r₀, hr₀, rfl⟩ | ⟨hi, rfl⟩
    · obtain ⟨halone₀, hnot⟩ : r₀.alone = true ∧ r₀.isBusy job.name = false := by
        simpa [StartedRun.join] using halone
      rcases getElem?_start_cases hr' with ⟨r₁, hr₁, rfl⟩ | ⟨-, rfl⟩
      · exact h.alone i j r₀ r₁ hr₀ hr₁ hne halone₀ hbusy hbusy'
      · exact (name_ne_of_not_isBusy hbusy hnot).symm
    · rcases getElem?_start_cases hr' with ⟨r₁, hr₁, rfl⟩ | ⟨hj, -⟩
      · have hnone : ∀ r ∈ l.runs, r.isBusy job.name = false := by
          simpa using halone
        exact name_ne_of_not_isBusy hbusy' (hnone r₁ (List.mem_of_getElem? hr₁))
      · exact absurd (hi.trans hj.symm) hne
  · intro id i hsource
    obtain ⟨r, hr, hid⟩ := h.source id i hsource
    exact ⟨r.join job.name, getElem?_start hr job scheduled, hid⟩
  · intro id i r hsource hr halone
    rcases getElem?_start_cases hr with ⟨r₀, hr₀, rfl⟩ | ⟨rfl, -⟩
    · obtain ⟨halone₀, -⟩ : r₀.alone = true ∧ r₀.isBusy job.name = false := by
        simpa [StartedRun.join] using halone
      obtain ⟨hread, hshown⟩ := h.left id i r₀ hsource hr₀ halone₀
      refine ⟨fun r' hr' hname healthy hreading => ?_, hshown⟩
      obtain ⟨j, hj⟩ := List.mem_iff_getElem?.1 hr'
      rcases getElem?_start_cases hj with ⟨r₁, hr₁, rfl⟩ | ⟨-, rfl⟩
      · exact hread r₁ (List.mem_of_getElem? hr₁) hname healthy hreading
      · contradiction
    · -- Nothing has come from a run that starts only now.
      obtain ⟨r₀, hr₀, -⟩ := h.source id l.runs.length hsource
      rw [List.getElem?_eq_none (Nat.le_refl _)] at hr₀
      contradiction

theorem Tracked.fire (h : l.Tracked) (policy : LockPolicy) (lease : Duration)
    (job : Descriptor) : (l.fire policy lease job).Tracked := by
  have hasked : (l.ask policy lease job.name).Tracked := by
    have hsame := Fire.same_request policy lease job.name l.supervisor
    refine h.of_registry_eq rfl rfl hsame.registry fun name => ?_
    rw [series_ask]
  simp only [RunLedger.fire]
  split
  · exact hasked.start job true
  · exact hasked
  · exact hasked

/-- The body of a run ends; nothing is read or shown yet. -/
theorem Tracked.finish (h : l.Tracked) {job : Descriptor} {scheduled alone : Bool} {r : Run}
    (hi : l.runs[i]? = some ⟨job, scheduled, alone, .running r⟩) (failure : Option String) :
    Tracked { l with runs := l.runs.set i ⟨job, scheduled, alone, .ended r failure⟩ } := by
  refine h.setStage hi (.ended r failure) (fun id hplace => ?_) ?_ ?_ ?_
  · exact h.placed _ (List.mem_of_getElem? hi) id hplace
  · intro hover
    contradiction
  · intro healthy hreading
    contradiction
  · intro hshows
    contradiction

theorem Tracked.step (h : l.Tracked) (m : LedgerMove) : (l.step N m).Tracked := by
  cases m with
  | begin job => exact h.start job false
  | fire policy lease job => exact h.fire policy lease job
  | advance i =>
      cases hi : l.runs[i]? with
      | some r =>
          simp only [RunLedger.step, hi]
          exact h.advance hi
      | none =>
          simp only [RunLedger.step, hi]
          exact h
  | finish i failure =>
      simp only [RunLedger.step]
      split
      · rename_i job scheduled alone r hi
        exact h.finish hi failure
      · exact h
  | change author? id op =>
      refine h.change fun i hsource => ?_
      simp only [sourceOf] at hsource
      split at hsource
      · rename_i author
        split at hsource
        · rename_i hbody
          obtain rfl := ChangeSource.run.inj hsource
          obtain ⟨r, hr, hrunning⟩ := Option.bind_eq_some_iff.1 hbody
          refine ⟨r, hr, ?_⟩
          cases hstage : r.stage with
          | running x =>
              rw [hstage] at hrunning
              exact ⟨hrunning, rfl⟩
          | _ =>
              rw [hstage] at hrunning
              contradiction
        · contradiction
      · contradiction
  | create name =>
      have hregistry := l.supervisor.registry_ensureRecord name
      refine h.grow rfl rfl ?_ (fun id => ?_) fun other => ?_
      · exact l.supervisor.leads_ensureRecord name
      · rw [RunLedger.step, Supervisor.record, hregistry]
        exact congrArg _ (Health.Registry.record_findOrInsert _ _ _)
      · simp only [RunLedger.step, series, Supervisor.ensureRecord]
        split <;> rfl
  | allocate =>
      refine h.grow rfl rfl (Health.Registry.leads_allocate _) (fun id => ?_) fun _ => rfl
      exact congrArg _ (Health.Registry.record_allocate _ id)
  | aside n =>
      refine h.of_registry_eq rfl rfl (n.registry l.supervisor) fun name => ?_
      rw [RunLedger.step, series, n.metrics]
      rfl

/-- What the last change of every record has left is kept, whatever happens. -/
theorem Tracked.run (h : l.Tracked) (moves : List LedgerMove) : (l.run N moves).Tracked := by
  induction moves generalizing l with
  | nil => exact h
  | cons m moves ih => exact ih (h.step m)

end RunLedger

end JobSupervisor
