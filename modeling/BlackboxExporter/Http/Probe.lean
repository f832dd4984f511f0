import BlackboxExporter.Http.Request

/-! `probeHTTP` of `http.go`, with `client.Do` following redirects.

The probe normalises the target, resolves it when the protocol is `tcp`,
writes the IP version, builds the request and sends it. The network enters as
an environment: name resolution, whether the TLS helper accepts the options,
the order in which map iteration visits the headers, and the replies to the
requests of one redirect chain. A reply is a failure with no response, a
final response, or a redirect the client follows when `CheckRedirect`
allows it.

On the response the probe sets `success` from the status code, may overwrite
it with the verdict of the body regexps, and then may overwrite it again with
the SSL checks. The two theorems at the end say what `success` amounts to over
every reply, and that a missing response leaves `probe_error` empty. -/

namespace BlackboxExporter.Http

open Go

/-- The value `getEarliestCertExpiry` computes from a TLS connection state,
in Unix nanoseconds; the helper is not under `src/`, so the state is
represented by that value. -/
structure TLSState where
  earliestCertExpiry : Int
  deriving DecidableEq, Repr

/-- An `http.Response` as the probe reads it; `body` is `none` when reading
it fails. -/
structure Response where
  statusCode : Int
  tls : Option TLSState
  body : Option String
  contentLength : Int
  deriving DecidableEq, Repr

def Response.zero : Response :=
  { statusCode := 0, tls := none, body := none, contentLength := 0 }

inductive Reply where
  | failed
  | final (response : Response)
  | redirect (response : Response)
  deriving DecidableEq, Repr

def checkRedirect (config : HTTPProbe) (via : Nat) : Nat × Bool :=
  (via, via > 10 || config.noFollowRedirects)

/-- `client.Do` over the replies to the successive requests of one chain;
`sent` is `len(via)`, the requests sent so far. A refused redirect returns
its response with the body already closed, together with an error. Returns
the response, if any, and the probe's `redirects`. -/
def clientDo (config : HTTPProbe) : List Reply → Nat → Nat → Option Response × Nat
  | [], _, redirects => (none, redirects)
  | .failed :: _, _, redirects => (none, redirects)
  | .final response :: _, _, redirects => (some response, redirects)
  | .redirect response :: rest, sent, _ =>
      let (redirects, refused) := checkRedirect config sent
      if refused then (some { response with body := none }, redirects)
      else clientDo config rest (sent + 1) redirects

theorem clientDo_take (config : HTTPProbe) (replies : List Reply) {sent : Nat}
    (redirects : Nat) (bound : sent ≤ 11) :
    clientDo config replies sent redirects =
      clientDo config (replies.take (12 - sent)) sent redirects := by
  induction replies generalizing sent redirects with
  | nil => rw [List.take_nil]
  | cons reply rest inductionHypothesis =>
      obtain ⟨remaining, split⟩ : ∃ remaining, 12 - sent = remaining + 1 :=
        ⟨11 - sent, by omega⟩
      rw [split, List.take_succ_cons]
      cases reply with
      | failed => rfl
      | final response => rfl
      | redirect response =>
          by_cases refused : sent > 10 || config.noFollowRedirects
          · simp [clientDo, checkRedirect, refused]
          · have next : sent + 1 ≤ 11 := by simp at refused; omega
            simp only [clientDo, checkRedirect, refused, Bool.false_eq_true, if_false]
            rw [inductionHypothesis _ next, show 12 - (sent + 1) = remaining by omega]

theorem clientDo_redirects_le (config : HTTPProbe) (replies : List Reply) {sent redirects : Nat}
    (sentBound : sent ≤ 11) (redirectsBound : redirects ≤ 11) :
    (clientDo config replies sent redirects).2 ≤ 11 := by
  induction replies generalizing sent redirects with
  | nil => exact redirectsBound
  | cons reply rest inductionHypothesis =>
      cases reply with
      | failed => exact redirectsBound
      | final response => exact redirectsBound
      | redirect response =>
          by_cases refused : sent > 10 || config.noFollowRedirects
          · simpa [clientDo, checkRedirect, refused] using sentBound
          · have next : sent + 1 ≤ 11 := by simp at refused; omega
            simp only [clientDo, checkRedirect, refused, Bool.false_eq_true, if_false]
            exact inductionHypothesis next sentBound

/-- Under the probe's `CheckRedirect` the client follows at most ten
redirects: it sends at most eleven requests, so only the first eleven replies
matter, and `probe_http_redirects` is at most eleven. -/
theorem clientDo_follows_at_most_ten_redirects (config : HTTPProbe) (replies : List Reply) :
    clientDo config replies 1 0 = clientDo config (replies.take 11) 1 0 ∧
      (clientDo config replies 1 0).2 ≤ 11 :=
  ⟨clientDo_take config replies 0 (by decide),
    clientDo_redirects_le config replies (by decide) (by decide)⟩

inductive Metric where
  | ipProtocol (version : Nat)
  | sslEarliestCertExpiry (unixNanos : Int)
  | httpStatusCode (code : Int)
  | httpContentLength (length : Int)
  | httpRedirects (count : Nat)
  | httpSsl (used : Nat)
  deriving DecidableEq, Repr

structure ProbeResult where
  success : Bool
  probeError : String
  metrics : List Metric
  deriving DecidableEq, Repr

/-- What `probeHTTP` asks of its surroundings: `net.ResolveIPAddr(network, host)`,
whether `TLSConfig.GenerateConfig()` succeeds, the order in which `range`
visits a map, and the replies to the requests of the chain a request starts. -/
structure HTTPEnv where
  resolveIPAddr : String → String → Option IPAddr
  generateConfig : Bool
  iterate : StringMap → List (String × String)
  iterate_visits : ∀ headers : StringMap, headers.Visits (iterate headers)
  exchange : Request → List Reply

/-! ### Before the request -/

def targetHost (targetURL : URL) : String :=
  match splitHostPort targetURL.host with
  | some (host, _) => host
  | none => targetURL.host

def resolutionHost (target : String) : Option String :=
  (urlParse target).map targetHost

def normalizeTarget (target : String) : String :=
  if "http://".data.isPrefixOf target.data || "https://".data.isPrefixOf target.data then
    target
  else "http://" ++ target

def dialProtocolFor (env : HTTPEnv) (module : Module) (target : String) :
    Except String String :=
  let protocol := if module.http.protocol = "" then "tcp" else module.http.protocol
  let preferred :=
    if protocol = "tcp" && module.http.preferredIPProtocol = "" then "ip6"
    else module.http.preferredIPProtocol
  let fallbackProtocol := if preferred = "ip6" then "ip4" else "ip6"
  if protocol = "tcp" then
    match resolutionHost target with
    | none => .error "Could not parse target URL"
    | some host =>
        match env.resolveIPAddr preferred host with
        | some ip => .ok (if ip.to4 = none then "tcp6" else "tcp4")
        | none =>
            match env.resolveIPAddr fallbackProtocol host with
            | some ip => .ok (if ip.to4 = none then "tcp6" else "tcp4")
            | none => .error "Error resolving address"
  else .ok protocol

/-- `probeHTTP` up to `client.Do`: the request, with the IP version line
already written, or the message of the early return and the lines written
before it. Every early return is `return false, message`. -/
def prepareRequest (env : HTTPEnv) (target : String) (module : Module) :
    Except (String × List Metric) (Request × Metric) :=
  let config := module.http
  let target := normalizeTarget target
  match dialProtocolFor env module target with
  | .error message => .error (message, [])
  | .ok dialProtocol =>
      let ipProtocol := Metric.ipProtocol (if dialProtocol = "tcp6" then 6 else 4)
      if !env.generateConfig then
        .error ("Error generating TLS config", [ipProtocol])
      else
        match newRequest config.method target with
        | none => .error ("Error creating request for target", [ipProtocol])
        | some request =>
            let request := setHeaders request (env.iterate config.headers)
            let request :=
              if config.body ≠ "" then { request with body := some config.body }
              else request
            .ok (request, ipProtocol)

/-! ### The response -/

section Response

variable (engine : Regexp)

def matchRegularExpressions (body : Option String) (config : HTTPProbe) :
    Bool × String :=
  match body with
  | none => (false, "Error reading HTTP body")
  | some body =>
      let message : Violation → String
        | .compileError => "Could not compile regexp"
        | .matchFailed => "Match failed"
      match engine.firstViolation body true config.failIfMatchesRegexp with
      | some violation => (false, message violation)
      | none =>
          match engine.firstViolation body false config.failIfNotMatchesRegexp with
          | some violation => (false, message violation)
          | none => (true, "")

def statusAccepted (config : HTTPProbe) (statusCode : Int) : Bool :=
  if config.validStatusCodes.length ≠ 0 then config.validStatusCodes.contains statusCode
  else 200 ≤ statusCode && statusCode < 300

/-- The status loop and the regexp check, from the named results'
zero values. A missing response is only logged. -/
def checkResponse (config : HTTPProbe) : Option Response → Bool × String
  | none => (false, "")
  | some response =>
      let (success, probeError) :=
        if statusAccepted config response.statusCode then (true, "") else (false, "")
      if success && (config.failIfMatchesRegexp.length > 0 ||
          config.failIfNotMatchesRegexp.length > 0) then
        matchRegularExpressions engine response.body config
      else (success, probeError)

end Response

def checkSSL (config : HTTPProbe) (tls : Option TLSState) (results : Bool × String) :
    Bool × String :=
  match tls with
  | some _ => if config.failIfSSL then (false, "SSL failed") else results
  | none => if config.failIfNotSSL then (false, "SSL failed") else results

def responseMetrics (response : Response) (redirects : Nat) : List Metric :=
  (response.tls.map fun state => Metric.sslEarliestCertExpiry state.earliestCertExpiry).toList ++
    [.httpStatusCode response.statusCode, .httpContentLength response.contentLength,
      .httpRedirects redirects, .httpSsl (if response.tls.isSome then 1 else 0)]

def probeHTTP (engine : Regexp) (env : HTTPEnv) (target : String) (module : Module) :
    ProbeResult :=
  match prepareRequest env target module with
  | .error (probeError, metrics) => ⟨false, probeError, metrics⟩
  | .ok (request, ipProtocol) =>
      let config := module.http
      let (response, redirects) := clientDo config (env.exchange request) 1 0
      let response' := response.getD Response.zero
      let (success, probeError) :=
        checkSSL config response'.tls (checkResponse engine config response)
      ⟨success, probeError, ipProtocol :: responseMetrics response' redirects⟩

/-! ### What `success` amounts to -/

theorem matchRegularExpressions_fst_eq_true_iff (engine : Regexp)
    (body : Option String) (config : HTTPProbe) :
    (matchRegularExpressions engine body config).1 = true ↔
      ∃ text, body = some text ∧
        (∀ pattern ∈ config.failIfMatchesRegexp, ∃ matcher,
          engine.compile pattern = some matcher ∧ matcher text = false) ∧
        (∀ pattern ∈ config.failIfNotMatchesRegexp, ∃ matcher,
          engine.compile pattern = some matcher ∧ matcher text = true) := by
  cases body with
  | none => simp [matchRegularExpressions]
  | some text =>
      simp only [matchRegularExpressions, Option.some.injEq, exists_eq_left']
      rw [← Bool.not_true, ← Bool.not_false,
        ← Regexp.firstViolation_eq_none_iff, ← Regexp.firstViolation_eq_none_iff]
      split
      · simp_all
      · split <;> simp_all

theorem statusAccepted_eq_true_iff (config : HTTPProbe) (statusCode : Int) :
    statusAccepted config statusCode = true ↔
      if config.validStatusCodes = [] then 200 ≤ statusCode ∧ statusCode < 300
      else statusCode ∈ config.validStatusCodes := by
  by_cases noCodes : config.validStatusCodes = [] <;> simp [statusAccepted, noCodes]

theorem checkResponse_fst_eq_true_iff (engine : Regexp) (config : HTTPProbe)
    (response : Option Response) :
    (checkResponse engine config response).1 = true ↔
      ∃ received, response = some received ∧
        statusAccepted config received.statusCode = true ∧
        ((config.failIfMatchesRegexp ≠ [] ∨ config.failIfNotMatchesRegexp ≠ []) →
          (matchRegularExpressions engine received.body config).1 = true) := by
  cases response with
  | none => simp [checkResponse]
  | some received =>
      cases accepted : statusAccepted config received.statusCode <;>
        simp [checkResponse, accepted, List.length_pos_iff_ne_nil]
      split <;> simp_all

theorem checkSSL_fst_eq_true_iff (config : HTTPProbe) (tls : Option TLSState)
    (results : Bool × String) :
    (checkSSL config tls results).1 = true ↔
      results.1 = true ∧ ¬(tls.isSome = true ∧ config.failIfSSL = true) ∧
        ¬(tls.isNone = true ∧ config.failIfNotSSL = true) := by
  cases tls <;> cases failIfSSL : config.failIfSSL <;>
    cases failIfNotSSL : config.failIfNotSSL <;>
    simp [checkSSL, failIfSSL, failIfNotSSL]

theorem probeHTTP_of_prepared (engine : Regexp) (env : HTTPEnv) (target : String)
    (module : Module) {request : Request} {ipProtocol : Metric}
    (prepared : prepareRequest env target module = .ok (request, ipProtocol)) :
    probeHTTP engine env target module =
      let (response, redirects) := clientDo module.http (env.exchange request) 1 0
      let response' := response.getD Response.zero
      let (success, probeError) :=
        checkSSL module.http response'.tls (checkResponse engine module.http response)
      ⟨success, probeError, ipProtocol :: responseMetrics response' redirects⟩ := by
  rw [probeHTTP, prepared]

/-- Whatever `client.Do` returns, a probe whose request was built succeeds
exactly when a response came back whose status is accepted, whose body was
read and passes every pattern when patterns are configured, and whose use of
TLS the SSL flags allow. -/
theorem probeHTTP_success_iff (engine : Regexp) (env : HTTPEnv) (target : String)
    (module : Module) {request : Request} {ipProtocol : Metric}
    (prepared : prepareRequest env target module = .ok (request, ipProtocol)) :
    (probeHTTP engine env target module).success = true ↔
      ∃ response, (clientDo module.http (env.exchange request) 1 0).1 = some response ∧
        (if module.http.validStatusCodes = [] then
          200 ≤ response.statusCode ∧ response.statusCode < 300
        else response.statusCode ∈ module.http.validStatusCodes) ∧
        ((module.http.failIfMatchesRegexp ≠ [] ∨ module.http.failIfNotMatchesRegexp ≠ []) →
          ∃ body, response.body = some body ∧
            (∀ pattern ∈ module.http.failIfMatchesRegexp, ∃ matcher,
              engine.compile pattern = some matcher ∧ matcher body = false) ∧
            (∀ pattern ∈ module.http.failIfNotMatchesRegexp, ∃ matcher,
              engine.compile pattern = some matcher ∧ matcher body = true)) ∧
        ¬(response.tls.isSome = true ∧ module.http.failIfSSL = true) ∧
        ¬(response.tls.isNone = true ∧ module.http.failIfNotSSL = true) := by
  rw [probeHTTP_of_prepared engine env target module prepared]
  simp only [checkSSL_fst_eq_true_iff, checkResponse_fst_eq_true_iff,
    statusAccepted_eq_true_iff, ← matchRegularExpressions_fst_eq_true_iff]
  cases (clientDo module.http (env.exchange request) 1 0).1 with
  | none => simp
  | some received =>
      simp only [Option.some.injEq, exists_eq_left', Option.getD_some]
      tauto

/-! ### The diagnostic -/

theorem matchRegularExpressions_snd_of_fst (engine : Regexp) (body : Option String)
    (config : HTTPProbe) (passed : (matchRegularExpressions engine body config).1 = true) :
    (matchRegularExpressions engine body config).2 = "" := by
  unfold matchRegularExpressions at *
  split at passed
  · cases passed
  · split at passed
    · cases passed
    · split at passed <;> simp_all

theorem checkResponse_snd_of_fst (engine : Regexp) (config : HTTPProbe)
    (response : Option Response) (passed : (checkResponse engine config response).1 = true) :
    (checkResponse engine config response).2 = "" := by
  cases response with
  | none => cases passed
  | some received =>
      cases accepted : statusAccepted config received.statusCode <;>
        simp only [checkResponse, accepted, if_true, if_false, Bool.true_and,
          Bool.false_and] at passed ⊢
      · cases passed
      · split <;> simp_all [matchRegularExpressions_snd_of_fst]

theorem checkSSL_snd_of_fst (config : HTTPProbe) (tls : Option TLSState)
    {results : Bool × String} (consistent : results.1 = true → results.2 = "")
    (passed : (checkSSL config tls results).1 = true) :
    (checkSSL config tls results).2 = "" := by
  unfold checkSSL at *
  split at passed <;> split at passed <;> simp_all

/-- A successful probe reports no diagnostic. -/
theorem probeHTTP_probeError_of_success (engine : Regexp) (env : HTTPEnv)
    (target : String) (module : Module)
    (passed : (probeHTTP engine env target module).success = true) :
    (probeHTTP engine env target module).probeError = "" := by
  unfold probeHTTP at *
  split at passed
  case h_1 => cases passed
  case h_2 =>
      exact checkSSL_snd_of_fst _ _ (checkResponse_snd_of_fst engine _ _) passed

def loopbackEnv (replies : List Reply) : HTTPEnv :=
  { resolveIPAddr := fun _ _ => some ⟨[127, 0, 0, 1]⟩
    generateConfig := true
    iterate := StringMap.entries
    iterate_visits := fun _ => List.Perm.refl _
    exchange := fun _ => replies }

def noRegexp : Regexp := ⟨fun _ => none⟩

def literalRegexp : Regexp := ⟨fun pattern => some fun text => text = pattern⟩

def strictModule : Module :=
  { Module.zero with
    http := { HTTPProbe.zero with
      validStatusCodes := [200, 204]
      failIfNotMatchesRegexp := ["ok"]
      failIfNotSSL := true } }

def tlsResponse : Response :=
  { statusCode := 204, tls := some ⟨0⟩, body := some "ok", contentLength := 2 }

theorem probeHTTP_success_iff_example :
    prepareRequest (loopbackEnv [.final tlsResponse]) "https://example.com" strictModule =
        .ok (exampleRequest, .ipProtocol 4) ∧
      (probeHTTP literalRegexp (loopbackEnv [.final tlsResponse]) "https://example.com"
        strictModule).success = true :=
  have prepared : prepareRequest (loopbackEnv [.final tlsResponse]) "https://example.com"
      strictModule = .ok (exampleRequest, .ipProtocol 4) := rfl
  ⟨prepared, (probeHTTP_success_iff literalRegexp (loopbackEnv [.final tlsResponse])
    "https://example.com" strictModule prepared).mpr
      ⟨tlsResponse, rfl, by decide,
        fun _ => ⟨"ok", rfl, fun _ absent => absurd absent (List.not_mem_nil _),
          fun pattern listed => ⟨_, rfl, by simpa [strictModule, eq_comm] using listed⟩⟩,
        by decide, by decide⟩⟩

def okResponse : Response :=
  { statusCode := 200, tls := none, body := some "", contentLength := 0 }

theorem probeHTTP_probeError_of_success_example :
    (probeHTTP noRegexp (loopbackEnv [.final okResponse]) "example.com" Module.zero).success =
        true ∧
      (probeHTTP noRegexp (loopbackEnv [.final okResponse]) "example.com"
        Module.zero).probeError = "" :=
  have passed :
      (probeHTTP noRegexp (loopbackEnv [.final okResponse]) "example.com"
        Module.zero).success = true := by decide
  ⟨passed, probeHTTP_probeError_of_success _ _ _ _ passed⟩

def notFound : Response :=
  { statusCode := 404, tls := none, body := some "", contentLength := 0 }

/-- The inputs on which `probe_error` says nothing or the wrong thing: an
unreachable target and a rejected status both fail with an empty
`probe_error`, and with `FailIfNotSSL` a target that never answered is
reported as an SSL failure. -/
theorem probeHTTP_failure_without_diagnostic :
    probeHTTP noRegexp (loopbackEnv [.failed]) "example.com" Module.zero =
        ⟨false, "", [.ipProtocol 4, .httpStatusCode 0, .httpContentLength 0,
          .httpRedirects 0, .httpSsl 0]⟩ ∧
      probeHTTP noRegexp (loopbackEnv [.final notFound]) "example.com" Module.zero =
        ⟨false, "", [.ipProtocol 4, .httpStatusCode 404, .httpContentLength 0,
          .httpRedirects 0, .httpSsl 0]⟩ ∧
      probeHTTP noRegexp (loopbackEnv [.failed]) "example.com"
          { Module.zero with http := { HTTPProbe.zero with failIfNotSSL := true } } =
        ⟨false, "SSL failed", [.ipProtocol 4, .httpStatusCode 0, .httpContentLength 0,
          .httpRedirects 0, .httpSsl 0]⟩ := by
  decide

end BlackboxExporter.Http
