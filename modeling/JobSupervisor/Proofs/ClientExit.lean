import JobSupervisor.Client.Exchange

/-!
# The exit code of the client

What the client makes of a response, whoever answers it: the supervisor that it was meant for,
another server under the same address, or something in between.  Of a response it looks at the
body first.  If that is JSON, the status decides whether the run failed; if it is not, the
response is written as an error and the run ends well, whatever the status is.

So the exit code tells whether the response was good only if its body is JSON.  A path that is not
served is answered with an empty body, and whoever only looks at the exit code misses that.

## Main definitions

* `Client.runOver` — a run of the client, whoever answers.
* `Client.run_eq_runOver` — over a network, what can be fetched is the answer.
* `Client.Receives` — a run receives a response.
* `Client.exit_of_received` — what the exit code tells about the response.
-/

namespace JobSupervisor.Client

open Http (Response)

variable {σ : Type}

/-- A run of the client in which `answer` answers requests for addresses. -/
def runOver (answer : Net.Url → σ → Option Response × σ) (args : List String) (s : σ) :
    Outcome × σ :=
  match Order.parse? args with
  | none => (.misuse, s)
  | some .help => (.help, s)
  | some (.ask base q) =>
      match url? base q with
      | none => (.unanswered, s)
      | some u =>
          match answer u s with
          | (some response, s) => (.finished (present response.status response.body), s)
          | (none, s) => (.unanswered, s)

/-- Over a network, what can be fetched is the answer. -/
theorem run_eq_runOver (n : Network) (args : List String) (s : Supervisor) :
    run n args s = runOver (fetch n) args s := by
  unfold run runOver carryOut
  cases Order.parse? args with
  | none => rfl
  | some order =>
      cases order with
      | help => rfl
      | ask base q =>
          cases hurl : url? base q with
          | none => simp only [hurl]
          | some u =>
              simp only [hurl]
              cases fetch n u s with
              | mk response s => cases response <;> rfl

/-- A run with these arguments receives a response: they are a query, its address can be asked
for, and there is an answer. -/
def Receives (answer : Net.Url → σ → Option Response × σ) (args : List String) (s : σ)
    (response : Response) : Prop :=
  ∃ base q u s', Order.parse? args = some (.ask base q) ∧ url? base q = some u ∧
    answer u s = (some response, s')

/-- A body is JSON. -/
def IsJson (body : String) : Prop := (Json.parse? body).isSome

/-- A response is good if its status stands for success and its body is JSON. -/
def IsGood (response : Response) : Prop :=
  Http.isSuccess response.status = true ∧ IsJson response.body

variable {answer : Net.Url → σ → Option Response × σ} {args : List String} {s : σ}
  {response : Response}

/-- What a run makes of the response that it receives. -/
theorem Receives.outcome (h : Receives answer args s response) :
    (runOver answer args s).1 = .finished (present response.status response.body) := by
  obtain ⟨base, q, u, s', horder, hurl, hanswer⟩ := h
  simp only [runOver, horder, hurl, hanswer]

/-! ## What the client makes of a response -/

/-- The exit code is zero for a body that is not JSON, and for a success. -/
theorem exit_present (status : Nat) (body : String) :
    (present status body).exit = 0 ↔ ¬ IsJson body ∨ Http.isSuccess status = true := by
  unfold present IsJson
  cases Json.parse? body with
  | none => simp
  | some j =>
      simp only
      split <;> simp_all

/-- The client writes an error unless the response is good. -/
theorem errors_present (response : Response) :
    (present response.status response.body).errors = [] ↔ IsGood response := by
  unfold present IsGood IsJson
  cases Json.parse? response.body with
  | none => simp
  | some j =>
      simp only
      split <;> simp_all

/-- **What the exit code tells.**  Whoever answers, a run that receives a response ends with the
exit code zero exactly if the response is a success or its body is not JSON.  It writes an error
exactly if the response is not good; so the exit code is zero exactly for good responses just in
case the body is JSON, and any other body is reported as an error without a failure. -/
theorem exit_of_received (h : Receives answer args s response) :
    ((runOver answer args s).1.exit = 0 ↔
      ¬ IsJson response.body ∨ Http.isSuccess response.status = true) ∧
    (((runOver answer args s).1.exit = 0 ↔ IsGood response) ↔ IsJson response.body) ∧
    ∃ t, (runOver answer args s).1 = .finished t ∧ (t.errors ≠ [] ↔ ¬ IsGood response) ∧
      (t.errors ≠ [] ∧ t.exit = 0 ↔ ¬ IsJson response.body) := by
  have hexit := exit_present response.status response.body
  have herrors := errors_present response
  rw [h.outcome]
  refine ⟨hexit, ?_, _, rfl, not_congr herrors, ?_⟩
  · rw [Outcome.exit, hexit, IsGood]
    by_cases hjson : IsJson response.body <;> simp [hjson]
  · rw [hexit, Ne, herrors, IsGood]
    by_cases hjson : IsJson response.body <;> simp [hjson]

/-- A degraded supervisor is a failure. -/
theorem exit_of_received_degraded :
    let response : Response := ⟨503, none, none, none, none, "\x7b\"status\":\"RESTRICTED\"\x7d"⟩
    let answer : Net.Url → Unit → Option Response × Unit := fun _ s => (some response, s)
    Receives answer ["status"] () response ∧ (runOver answer ["status"] ()).1.exit ≠ 0 := by
  intro response answer
  have hreceives : Receives answer ["status"] () response :=
    ⟨"http://localhost:8080", .status, ⟨"http", "localhost", 8080, "/health", none, none⟩, (),
      by decide +kernel, by decide +kernel, rfl⟩
  refine ⟨hreceives, ?_⟩
  intro hexit
  have := (exit_of_received hreceives).1.mp hexit
  unfold response IsJson at this
  revert this
  decide +kernel

/-- The answer under a path that is not served has an empty body, and yet the run that receives it
over the network ends well. -/
theorem exit_of_unserved_path :
    let network := Network.serving "localhost" 8080
    let args := ["--url", "http://localhost:8080/nope", "status"]
    let response := Response.notFound.identified (Context.Identifier.nth 0)
    Receives (fetch network) args .initial response ∧
      (run network args .initial).1 = .finished (present response.status response.body) ∧
      ¬ ((run network args .initial).1.exit = 0 ↔ IsGood response) := by
  intro network args response
  have hfetch : (fetch network
      ⟨"http", "localhost", 8080, "/nope/health", none, none⟩ .initial).1 = some response := by
    decide +kernel
  have hreceives : Receives (fetch network) args .initial response :=
    ⟨"http://localhost:8080/nope", .status, _, _, by decide +kernel, by decide +kernel,
      Prod.ext hfetch rfl⟩
  have hrun : (run network args .initial).1 =
      .finished (present response.status response.body) := by
    rw [run_eq_runOver]
    exact hreceives.outcome
  have hempty : ¬ IsJson response.body := by
    unfold IsJson
    decide +kernel
  have hexit : (run network args .initial).1.exit = 0 := by
    rw [hrun]
    exact (exit_present response.status response.body).2 (.inl hempty)
  exact ⟨hreceives, hrun, fun h => hempty (h.1 hexit).2⟩

end JobSupervisor.Client
