import JobSupervisor.Proofs.HealthEndpoints
import JobSupervisor.Proofs.RunViews
import JobSupervisor.Proofs.TrimmedTexts

/-!
# The identifier of a request

The header with the identifier of a request is read three times: its value is echoed in the
response, the span of the request names it if it is readable, and the scope of the two handlers
takes what is left of a readable value after trimming.  The three agree on a value that is readable,
not blank and without white space around it, and on every identifier that is drawn for a request
without the header.  For all other values the handlers draw an identifier or work under the trimmed
value.

A handler opens one scope and closes it, so the depth of the thread is as before.  If the scope was
the outermost one, no identifier is in effect afterwards, and none was before, unless one had been
put among the diagnostics of the thread outside every scope: that one is gone.

## Main definitions

* `Http.IsPlain` — the values on which all readers agree.
* `Http.Request.handler?`, `Supervisor.handling` — the handler of a request, and where it begins.
* `Supervisor.Identified` — a request is answered under one identifier.
* `Supervisor.one_identifier` — under which identifiers requests are answered.
-/

namespace JobSupervisor

open Http

/-! ## Plain values -/

namespace Http

/-- A value that is readable, not blank, and has no white space around it. -/
structure IsPlain (value : String) : Prop where
  readable : isReadable value = true
  notBlank : ¬ Text.IsBlank value
  trimmed : Text.trim value = value

/-- A character that is visible and in ASCII. -/
def isVisible (c : Char) : Bool := 0x21 ≤ c.toNat && c.toNat ≤ 0x7E

theorem isWhite_of_isVisible {c : Char} (h : isVisible c = true) : Text.isWhite c = false := by
  simp only [isVisible, Bool.and_eq_true, decide_eq_true_eq] at h
  simp [Text.isWhite]
  omega

end Http

/-- A text of visible characters is plain. -/
theorem Http.isPlain_of_isVisible {s : String} (hne : s ≠ "")
    (h : ∀ c ∈ s.toList, isVisible c = true) : IsPlain s := by
  refine ⟨?_, ?_, Text.trim_eq_self fun c hc => isWhite_of_isVisible (h c hc)⟩
  · simp only [isReadable, List.all_eq_true]
    intro c hc
    have := h c hc
    simp only [isVisible, Bool.and_eq_true, decide_eq_true_eq] at this
    simp
    omega
  · intro hblank
    cases hs : s.toList with
    | nil => exact hne (String.toList_eq_nil_iff.mp hs)
    | cons c rest =>
        have hc : c ∈ s.toList := by simp [hs]
        have hwhite := hblank c hc
        rw [isWhite_of_isVisible (h c hc)] at hwhite
        contradiction

namespace Context.Identifier

theorem isVisible_digitChar : ∀ d < 16, isVisible (Nat.digitChar d) = true := by
  decide

theorem isVisible_of_mem_toDigits {n : Nat} {c : Char} (h : c ∈ Nat.toDigits 16 n) :
    isVisible c = true := by
  induction n using Nat.strongRecOn with
  | ind n ih =>
      by_cases hn : n < 16
      · rw [Nat.toDigits_of_lt_base hn, List.mem_singleton] at h
        rw [h]
        exact isVisible_digitChar n hn
      · rw [Nat.toDigits_of_base_le (by omega) (by omega), List.mem_append,
          List.mem_singleton] at h
        rcases h with h | rfl
        · exact ih (n / 16) (by omega) h
        · exact isVisible_digitChar _ (by omega)

/-- Every identifier that is drawn is plain. -/
theorem isPlain_nth (n : Nat) : IsPlain (nth n) := by
  refine isPlain_of_isVisible ?_ ?_
  · intro hempty
    have hshared := (String.append_eq_empty_iff.mp hempty).1
    exact absurd hshared (by decide)
  · intro c hc
    simp only [nth, group, String.toList_append, String.toList_ofList, List.mem_append] at hc
    rcases hc with hshared | hzero | hdigit
    · exact List.all_eq_true.mp (by decide : shared.toList.all isVisible = true) c hshared
    · rw [List.eq_of_mem_replicate hzero]
      decide
    · exact isVisible_of_mem_toDigits hdigit

end Context.Identifier

/-- The diagnostics that an event carries. -/
def Log.Event.diagnostics? : Log.Event → Option (List (String × String))
  | .runFailed _ _ _ diagnostics | .healthRestricted _ diagnostics
  | .unknownJobRequested _ diagnostics => some diagnostics
  | _ => none

/-! ## Requests and their handlers -/

/-- The value of the header that carries the identifier. -/
def Http.Request.identifier? (r : Request) : Option String := r.header? requestIdHeader

/-- What answers a request within a scope: the report on all jobs, or the health of a job. -/
def Http.Request.handler? (r : Request) : Option (Supervisor → Response × Supervisor) :=
  match Route.ofPath? r.path with
  | some .health => some Supervisor.healthResponse
  | some (.job segment) => (decodeSegment? segment).map Supervisor.jobResponse
  | some .jobs | none => none

namespace Supervisor

variable {s : Supervisor} {r : Request} {answer : Supervisor → Response × Supervisor}

/-- The identifier that a response echoes: the value of the header, or else a drawn one. -/
def echoed (s : Supervisor) (r : Request) : String :=
  r.identifier?.getD (Context.Identifier.nth s.drawn)

/-- The identifier that a response echoes, if it is readable. -/
def readable? (s : Supervisor) (r : Request) : Option String :=
  if isReadable (s.echoed r) then some (s.echoed r) else none

/-- The supervisor with the span of a request open. -/
def arrival (s : Supervisor) (r : Request) : Supervisor :=
  (s.requestId r).2.openSpan (.request r.method r.path ((s.readable? r).getD "unknown"))

/-- The supervisor in which the handler of a request begins. -/
def handling (s : Supervisor) (r : Request) : Supervisor :=
  ((s.arrival r).enterScope (s.readable? r)).2

/-- The identifier under which a handler works if no other scope is open: what is left of the value
of the header after trimming, or a drawn one if the value is missing, blank or not readable. -/
def handlerIdentifier (s : Supervisor) (r : Request) : String :=
  match r.identifier? with
  | some value =>
      if isReadable value = true ∧ ¬ Text.IsBlank value then Text.trim value
      else Context.Identifier.nth s.drawn
  | none => Context.Identifier.nth s.drawn

theorem fst_requestId (s : Supervisor) (r : Request) : (s.requestId r).1 = s.echoed r := by
  simp only [requestId, echoed, Request.identifier?]
  split <;> simp_all [freshIdentifier]

theorem respond_eq (s : Supervisor) (r : Request) :
    s.respond r =
      let (response, t) := match Route.ofPath? r.path with
        | some route => (s.arrival r).serveMethod r.method (s.readable? r) route
        | none => (.notFound, s.arrival r)
      (response.identified (s.echoed r), t.closeSpan) := by
  unfold arrival readable?
  rw [← fst_requestId]
  rfl

/-- A handler answers within a scope that it opens and closes. -/
theorem serve_of_handler {route : Route} (hroute : Route.ofPath? r.path = some route)
    (h : r.handler? = some answer) :
    (s.arrival r).serve (s.readable? r) route =
      ((answer (s.handling r)).1, (answer (s.handling r)).2.exitScope.2) := by
  rw [Request.handler?, hroute] at h
  cases route with
  | health =>
      obtain rfl := Option.some.inj h
      rfl
  | job segment =>
      obtain ⟨name, hname, rfl⟩ := Option.map_eq_some_iff.mp h
      simp only [serve, hname]
      rfl
  | jobs => contradiction

/-- Without a handler nothing happens besides the answer. -/
theorem snd_serve_of_none {route : Route} (hroute : Route.ofPath? r.path = some route)
    (h : r.handler? = none) : ((s.arrival r).serve (s.readable? r) route).2 = s.arrival r := by
  rw [Request.handler?, hroute] at h
  cases route with
  | health => contradiction
  | job segment =>
      have hname : decodeSegment? segment = none := by simpa using h
      simp only [serve, hname]
  | jobs => rfl

/-- A request that is served by a handler is answered by it. -/
theorem respond_of_handler (hmethod : r.method = "GET") (h : r.handler? = some answer) :
    s.respond r = ((answer (s.handling r)).1.identified (s.echoed r),
      (answer (s.handling r)).2.exitScope.2.closeSpan) := by
  obtain ⟨route, hroute⟩ : ∃ route, Route.ofPath? r.path = some route := by
    cases hroute : Route.ofPath? r.path with
    | none => simp [Request.handler?, hroute] at h
    | some route => exact ⟨route, rfl⟩
  rw [respond_eq, hroute]
  simp only [serveMethod, if_pos hmethod, serve_of_handler hroute h]

/-- A request either has no effect, or that of its handler within a scope. -/
theorem snd_respond_cases (s : Supervisor) (r : Request) :
    (s.respond r).2 = (s.arrival r).closeSpan ∨
      ∃ answer, r.handler? = some answer ∧
        (s.respond r).2 = (answer (s.handling r)).2.exitScope.2.closeSpan := by
  rw [respond_eq]
  cases hroute : Route.ofPath? r.path with
  | none => exact .inl rfl
  | some route =>
      have hserve : ((s.arrival r).serve (s.readable? r) route).2.closeSpan =
            (s.arrival r).closeSpan ∨
          ∃ answer, r.handler? = some answer ∧
            ((s.arrival r).serve (s.readable? r) route).2.closeSpan =
              (answer (s.handling r)).2.exitScope.2.closeSpan := by
        cases h : r.handler? with
        | none => exact .inl (by rw [snd_serve_of_none hroute h])
        | some answer => exact .inr ⟨answer, rfl, by rw [serve_of_handler hroute h]⟩
      simp only [serveMethod]
      split
      · exact hserve
      · split
        · exact hserve
        · exact .inl rfl

/-- A handler logs at most one event, which carries the diagnostics of the thread. -/
theorem snd_handler (h : r.handler? = some answer) (t : Supervisor) :
    (answer t).2 = t ∨ ∃ e : Log.Event,
      e.diagnostics? = some t.thread.context.snapshot ∧ (answer t).2 = t.emit e := by
  have hhealth : t.healthResponse.2 = t ∨ ∃ e : Log.Event,
      e.diagnostics? = some t.thread.context.snapshot ∧ t.healthResponse.2 = t.emit e := by
    simp only [healthResponse]
    split
    · exact .inl rfl
    · exact .inr ⟨_, rfl, rfl⟩
  have hjob (name : String) : (t.jobResponse name).2 = t ∨ ∃ e : Log.Event,
      e.diagnostics? = some t.thread.context.snapshot ∧ (t.jobResponse name).2 = t.emit e := by
    simp only [jobResponse]
    split
    · exact .inl rfl
    · exact .inr ⟨_, rfl, rfl⟩
  simp only [Request.handler?] at h
  split at h
  · obtain rfl := Option.some.inj h
    exact hhealth
  · obtain ⟨name, -, rfl⟩ := Option.map_eq_some_iff.mp h
    exact hjob name
  · contradiction
  · contradiction

theorem thread_handler (h : r.handler? = some answer) (t : Supervisor) :
    (answer t).2.thread = t.thread := by
  rcases snd_handler h t with heq | ⟨e, -, heq⟩ <;> rw [heq]
  rfl

/-! ## The identifier under which a handler works -/

theorem context_arrival (s : Supervisor) (r : Request) :
    (s.arrival r).thread.context = s.thread.context := by
  simp only [arrival, requestId]
  split <;> rfl

theorem journal_arrival (s : Supervisor) (r : Request) : (s.arrival r).journal = s.journal := by
  simp only [arrival, requestId]
  split <;> rfl

theorem drawn_arrival (h : r.identifier? ≠ none) : (s.arrival r).drawn = s.drawn := by
  obtain ⟨value, hvalue⟩ := Option.ne_none_iff_exists'.mp h
  simp only [Request.identifier?] at hvalue
  simp [arrival, requestId, hvalue, openSpan]

/-- The scope of a handler has the handler's identifier if it is the outermost one. -/
theorem current_handling (h : s.thread.context.depth = 0) :
    (s.handling r).thread.context.current = some (s.handlerIdentifier r) := by
  rw [handling, current_enterScope_outermost (by rw [context_arrival]; exact h),
    Context.getD_usable?]
  cases hvalue : r.identifier? with
  | none =>
      have hechoed : s.echoed r = Context.Identifier.nth s.drawn := by
        simp [echoed, hvalue]
      have hplain := Context.Identifier.isPlain_nth s.drawn
      simp [readable?, hechoed, hplain.readable, Context.suppliedOr, hplain.notBlank,
        hplain.trimmed, handlerIdentifier, hvalue]
  | some value =>
      have hechoed : s.echoed r = value := by
        simp [echoed, hvalue]
      rw [drawn_arrival (by simp [hvalue])]
      by_cases hreadable : isReadable value = true
      · by_cases hblank : Text.IsBlank value <;>
          simp [readable?, hechoed, hreadable, Context.suppliedOr, hblank, handlerIdentifier,
            hvalue]
      · simp [readable?, hechoed, hreadable, Context.suppliedOr, handlerIdentifier, hvalue]

/-- No handler works under a blank identifier. -/
theorem not_isBlank_handlerIdentifier (s : Supervisor) (r : Request) :
    ¬ Text.IsBlank (s.handlerIdentifier r) := by
  have hdrawn := (Context.Identifier.isPlain_nth s.drawn).notBlank
  simp only [handlerIdentifier]
  split
  · split
    · rename_i h
      exact Text.not_isBlank_trim h.2
    · exact hdrawn
  · exact hdrawn

/-! ## What a request leaves -/

/-- The depth is as before. -/
theorem depth_respond (s : Supervisor) (r : Request) :
    (s.respond r).2.thread.context.depth = s.thread.context.depth := by
  rcases s.snd_respond_cases r with heq | ⟨answer, h, heq⟩ <;> rw [heq]
  · exact congrArg Context.depth (s.context_arrival r)
  · have hclosed := (answer (s.handling r)).2.depth_exitScope
    rw [thread_handler h, handling, depth_enterScope, context_arrival] at hclosed
    exact hclosed

/-- The identifier is as before if it belonged to an open scope, or if there was none. -/
theorem current_respond (r : Request)
    (h : 0 < s.thread.context.depth ∨ s.thread.context.current = none) :
    (s.respond r).2.thread.context.current = s.thread.context.current := by
  rcases s.snd_respond_cases r with heq | ⟨answer, hanswer, heq⟩ <;> rw [heq]
  · exact congrArg Context.current (s.context_arrival r)
  · change (answer (s.handling r)).2.exitScope.2.thread.context.current = _
    have hthread := thread_handler hanswer (s.handling r)
    have hdepth : (answer (s.handling r)).2.thread.context.depth =
        s.thread.context.depth + 1 := by
      rw [hthread, handling, depth_enterScope, context_arrival]
    by_cases hzero : s.thread.context.depth = 0
    · rw [current_exitScope_outermost (by omega)]
      exact (h.resolve_left (by omega)).symm
    · rw [current_exitScope_inner (by omega), hthread, handling, current_enterScope_inner,
        context_arrival]
      rwa [context_arrival]

/-- What a request logs is logged within its span, and carries an identifier among the diagnostics,
and no other one. -/
def LogsUnder (s : Supervisor) (r : Request) (id : String) : Prop :=
  ∃ entries : List Log.Entry,
    (s.respond r).2.journal.toList = s.journal.toList ++ entries ∧
    ∀ e ∈ entries, e.spans = (s.arrival r).thread.spans.reverse ∧
      ∃ diagnostics, e.event.diagnostics? = some diagnostics ∧
        ∀ other, (Context.correlationKey, other) ∈ diagnostics ↔ other = id

/-- While no other scope is open, everything is logged under the identifier of the handler. -/
theorem logsUnder_handlerIdentifier (h : s.thread.context.depth = 0) (r : Request) :
    s.LogsUnder r (s.handlerIdentifier r) := by
  rcases s.snd_respond_cases r with heq | ⟨answer, hanswer, heq⟩ <;> rw [LogsUnder, heq]
  · refine ⟨[], ?_, by simp⟩
    rw [List.append_nil]
    exact congrArg Array.toList (s.journal_arrival r)
  · have hjournal : (s.handling r).journal = s.journal :=
      ((s.arrival r).journal_enterScope _).trans (s.journal_arrival r)
    rcases snd_handler hanswer (s.handling r) with hnone | ⟨e, hdiagnostics, hone⟩
    · rw [hnone]
      refine ⟨[], ?_, by simp⟩
      rw [List.append_nil]
      exact congrArg Array.toList hjournal
    · rw [hone]
      refine ⟨[(s.handling r).entryOf e], ?_, ?_⟩
      · rw [← hjournal]
        exact (s.handling r).journal_emit e
      · simp only [List.mem_singleton, forall_eq]
        refine ⟨?_, _, hdiagnostics, ?_⟩
        · simp [entryOf, handling]
        · intro other
          rw [Context.snapshot, NameMap.mem_toList_iff]
          have hcurrent := current_handling (r := r) h
          rw [Context.current] at hcurrent
          rw [hcurrent, Option.some.injEq, eq_comm]

/-! ## One identifier -/

/-- A request is answered under one identifier. -/
structure Identified (s : Supervisor) (r : Request) (id : String) : Prop where
  /-- It is the value of the header, if there is one. -/
  supplied : ∀ value, r.identifier? = some value → id = value
  /-- The response echoes it. -/
  echoed : (s.respond r).1.requestId = some id
  /-- The span of the request names it. -/
  span : ∃ span, (s.arrival r).thread.spans = span :: s.thread.spans ∧
    span.name = "http_request" ∧ ∀ other, ("correlation_id", other) ∈ span.fields ↔ other = id
  /-- On a thread without an open scope the handlers log it. -/
  logged : s.thread.context.depth = 0 → s.LogsUnder r id

theorem spans_arrival (s : Supervisor) (r : Request) :
    (s.arrival r).thread.spans =
      .request r.method r.path ((s.readable? r).getD "unknown") :: s.thread.spans := by
  simp only [arrival, requestId]
  split <;> rfl

theorem requestId_respond (s : Supervisor) (r : Request) :
    (s.respond r).1.requestId = some (s.echoed r) := by
  rw [respond_eq]
  rfl

/-- What is echoed is plain if the header says nothing or something plain. -/
theorem isPlain_echoed (h : ∀ value, r.identifier? = some value → IsPlain value) :
    IsPlain (s.echoed r) := by
  rw [echoed]
  cases hvalue : r.identifier? with
  | none => exact Context.Identifier.isPlain_nth s.drawn
  | some value => exact h value hvalue

/-- A handler works under what is echoed, if that is plain. -/
theorem handlerIdentifier_eq_echoed (h : ∀ value, r.identifier? = some value → IsPlain value) :
    s.handlerIdentifier r = s.echoed r := by
  rw [echoed, handlerIdentifier]
  cases hvalue : r.identifier? with
  | none => rfl
  | some value =>
      have hplain := h value hvalue
      simp [hplain.readable, hplain.notBlank, hplain.trimmed]

/-- A request without the header, or with a plain one, is answered under one identifier. -/
theorem identified_echoed (h : ∀ value, r.identifier? = some value → IsPlain value) :
    s.Identified r (s.echoed r) := by
  refine ⟨?_, s.requestId_respond r, ⟨_, s.spans_arrival r, rfl, ?_⟩, ?_⟩
  · intro value hvalue
    simp [echoed, hvalue]
  · intro other
    simp [readable?, (isPlain_echoed h).readable, Log.Span.fields]
  · intro hdepth
    rw [← handlerIdentifier_eq_echoed h]
    exact logsUnder_handlerIdentifier hdepth r

/-- **The identifier of a request.**  If the header is missing or its value is plain, the response
echoes the identifier, the span names it, and the handlers log it.  Whatever the header says, a
handler that begins while no scope is open works under an identifier that is not blank, and one that
begins within a scope keeps that of the scope.  After every request the depth of the thread is as
before, and so is the identifier that is in effect if a scope was open or if there was none. -/
theorem one_identifier (s : Supervisor) (r : Request) :
    ((∀ value, r.identifier? = some value → IsPlain value) → s.Identified r (s.echoed r)) ∧
    (∀ answer, r.method = "GET" → r.handler? = some answer →
      s.respond r = ((answer (s.handling r)).1.identified (s.echoed r),
        (answer (s.handling r)).2.exitScope.2.closeSpan)) ∧
    (s.thread.context.depth = 0 →
      (s.handling r).thread.context.current = some (s.handlerIdentifier r) ∧
        ¬ Text.IsBlank (s.handlerIdentifier r) ∧ s.LogsUnder r (s.handlerIdentifier r)) ∧
    (0 < s.thread.context.depth →
      (s.handling r).thread.context.current = s.thread.context.current) ∧
    (s.respond r).2.thread.context.depth = s.thread.context.depth ∧
    (0 < s.thread.context.depth ∨ s.thread.context.current = none →
      (s.respond r).2.thread.context.current = s.thread.context.current) := by
  refine ⟨identified_echoed, fun _ => respond_of_handler, ?_, ?_, s.depth_respond r,
    current_respond r⟩
  · intro hdepth
    exact ⟨current_handling hdepth, s.not_isBlank_handlerIdentifier r,
      logsUnder_handlerIdentifier hdepth r⟩
  · intro hdepth
    rw [handling, current_enterScope_inner, context_arrival]
    rw [context_arrival]
    exact Nat.ne_of_gt hdepth

/-- An identifier that was put among the diagnostics outside every scope does not survive a
request. -/
theorem unscoped_identifier_lost :
    let s := initial.withContext (Context.initial.put Context.correlationKey "left")
    s.thread.context.current = some "left" ∧
      (s.respond ⟨"GET", "/health", []⟩).2.thread.context.current = none := by
  decide +kernel

-- Only the handler trims the value; the response has it as it was sent.
example :
    let r : Request := ⟨"GET", "/health", [("X-Request-Id", " r 1 ")]⟩
    initial.echoed r = " r 1 " ∧ initial.handlerIdentifier r = "r 1" := by
  decide +kernel

end Supervisor

end JobSupervisor
