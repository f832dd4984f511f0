import BlackboxExporter.Go.Net
import BlackboxExporter.Config

/-! `ProbeDNS` of the DNS prober, with `validRcode` and `validRRs`.

The prober splits the target into host and port, resolves the host, sends
one query and checks the response: its rcode against `ValidRcodes`, then each
of the three record sections against its validator. Name resolution, the
`miekg/dns` tables and the exchange itself enter as an environment. The record
counts are exported on every path, zero when no response came back.

`validRcode` tells a nil `ValidRcodes` (only `NOERROR` is valid) from an
empty one (no rcode is valid). `validRRs` fails an empty section only when a
match is required, and otherwise checks every record against every pattern,
so its verdict depends only on which records the section holds. -/

namespace BlackboxExporter.Dns

open Go

/-- A resource record, by the text `rr.String()` gives. -/
structure RR where
  text : String
  deriving DecidableEq, Repr

/-! ### Sections -/

def validRRsLoop (engine : Regexp) (v : DNSRRValidator) : List RR → Bool
  | [] => true
  | rr :: rest =>
      match engine.firstViolation rr.text true v.failIfMatchesRegexp with
      | some _ => false
      | none =>
          match engine.firstViolation rr.text false v.failIfNotMatchesRegexp with
          | some _ => false
          | none => validRRsLoop engine v rest

/-- `validRRs`: an empty section fails only when a match is required. -/
def validRRs (engine : Regexp) (rrs : List RR) (v : DNSRRValidator) : Bool :=
  if rrs.length = 0 && v.failIfNotMatchesRegexp.length > 0 then false
  else validRRsLoop engine v rrs

def RRPasses (engine : Regexp) (v : DNSRRValidator) (rr : RR) : Prop :=
  (∀ pattern ∈ v.failIfMatchesRegexp, ∃ matcher,
      engine.compile pattern = some matcher ∧ matcher rr.text = false) ∧
    (∀ pattern ∈ v.failIfNotMatchesRegexp, ∃ matcher,
      engine.compile pattern = some matcher ∧ matcher rr.text = true)

theorem rrPasses_iff (engine : Regexp) (v : DNSRRValidator) (rr : RR) :
    RRPasses engine v rr ↔
      engine.firstViolation rr.text true v.failIfMatchesRegexp = none ∧
        engine.firstViolation rr.text false v.failIfNotMatchesRegexp = none := by
  simp [RRPasses, Regexp.firstViolation_eq_none_iff]

theorem validRRsLoop_eq_true_iff (engine : Regexp) (v : DNSRRValidator)
    (rrs : List RR) :
    validRRsLoop engine v rrs = true ↔ ∀ rr ∈ rrs, RRPasses engine v rr := by
  induction rrs with
  | nil => simp [validRRsLoop]
  | cons rr rest inductionHypothesis =>
      rw [List.forall_mem_cons, ← inductionHypothesis, rrPasses_iff, validRRsLoop]
      split
      · simp_all
      · split <;> simp_all

theorem validRRsLoop_eq_of_same_records (engine : Regexp) (v : DNSRRValidator)
    {first second : List RR} (sameRecords : ∀ rr, rr ∈ first ↔ rr ∈ second) :
    validRRsLoop engine v first = validRRsLoop engine v second :=
  Bool.eq_iff_iff.mpr (by simp only [validRRsLoop_eq_true_iff, sameRecords])

/-- `validRRs` accepts exactly when the section is non-empty or no match is
required, and every record compiles clear of every fail-if-match pattern
and matches every fail-if-not-match pattern. -/
theorem validRRs_iff (engine : Regexp) (rrs : List RR) (v : DNSRRValidator) :
    validRRs engine rrs v = true ↔
      (rrs ≠ [] ∨ v.failIfNotMatchesRegexp = []) ∧
        ∀ rr ∈ rrs,
          (∀ pattern ∈ v.failIfMatchesRegexp, ∃ matcher,
            engine.compile pattern = some matcher ∧ matcher rr.text = false) ∧
          (∀ pattern ∈ v.failIfNotMatchesRegexp, ∃ matcher,
            engine.compile pattern = some matcher ∧ matcher rr.text = true) := by
  have loop := validRRsLoop_eq_true_iff engine v rrs
  simp only [RRPasses] at loop
  rw [← loop]
  unfold validRRs
  cases rrs <;> cases v.failIfNotMatchesRegexp <;> simp [validRRsLoop]

/-- The verdict depends only on which records the section holds: neither
their order nor repetitions change it. -/
theorem validRRs_congr_mem (engine : Regexp) (v : DNSRRValidator)
    {first second : List RR} (sameRecords : ∀ rr, rr ∈ first ↔ rr ∈ second) :
    validRRs engine first v = validRRs engine second v := by
  have sameEmpty : first = [] ↔ second = [] := by
    simp only [List.eq_nil_iff_forall_not_mem, sameRecords]
  apply Bool.eq_iff_iff.mpr
  simp only [validRRs_iff, ne_eq, sameEmpty, sameRecords]

def exactEngine : Regexp := ⟨fun _ => some fun text => text = "a.example."⟩

theorem validRRs_congr_mem_example :
    (∀ rr, rr ∈ [RR.mk "a.example.", RR.mk "b.example."] ↔
        rr ∈ [RR.mk "b.example.", RR.mk "a.example.", RR.mk "b.example."]) ∧
      validRRs exactEngine [RR.mk "a.example.", RR.mk "b.example."] ⟨[], ["a"]⟩ =
        validRRs exactEngine [RR.mk "b.example.", RR.mk "a.example.", RR.mk "b.example."]
          ⟨[], ["a"]⟩ :=
  have sameRecords : ∀ rr, rr ∈ [RR.mk "a.example.", RR.mk "b.example."] ↔
      rr ∈ [RR.mk "b.example.", RR.mk "a.example.", RR.mk "b.example."] := by
    intro rr
    simp only [List.mem_cons, List.mem_singleton, List.not_mem_nil, or_false]
    tauto
  ⟨sameRecords, validRRs_congr_mem exactEngine ⟨[], ["a"]⟩ sameRecords⟩

/-! ### Rcodes -/

def rcodesOf (stringToRcode : String → Option Int) : List String → Option (List Int)
  | [] => some []
  | name :: rest =>
      match stringToRcode name with
      | none => none
      | some rc => (rcodesOf stringToRcode rest).map (rc :: ·)

/-- `validRcode`. A nil list stands for `NOERROR` alone, read from the table
as Go's map index does, with zero for a missing key. -/
def validRcode (stringToRcode : String → Option Int) (rcode : Int)
    (valid : Option (List String)) : Bool :=
  let validRcodes :=
    match valid with
    | none => some [(stringToRcode "NOERROR").getD 0]
    | some names => rcodesOf stringToRcode names
  match validRcodes with
  | none => false
  | some codes => codes.contains rcode

theorem rcodesOf_isSome_iff (stringToRcode : String → Option Int)
    (names : List String) :
    (rcodesOf stringToRcode names).isSome ↔ ∀ name ∈ names, (stringToRcode name).isSome := by
  induction names with
  | nil => simp [rcodesOf]
  | cons name rest inductionHypothesis =>
      cases known : stringToRcode name <;> simp [rcodesOf, known, inductionHypothesis]

theorem mem_of_rcodesOf {stringToRcode : String → Option Int} {names : List String}
    {codes : List Int} (looked : rcodesOf stringToRcode names = some codes) (rcode : Int) :
    rcode ∈ codes ↔ ∃ name ∈ names, stringToRcode name = some rcode := by
  induction names generalizing codes with
  | nil =>
      cases looked
      simp
  | cons name rest inductionHypothesis =>
      cases known : stringToRcode name with
      | none => simp [rcodesOf, known] at looked
      | some code =>
          cases restLooked : rcodesOf stringToRcode rest with
          | none => simp [rcodesOf, known, restLooked] at looked
          | some restCodes =>
              simp only [rcodesOf, known, restLooked, Option.map_some',
                Option.some.injEq] at looked
              subst looked
              simp [inductionHypothesis restLooked, or_and_right, exists_or, known,
                eq_comm]

/-- A nil `ValidRcodes` accepts `NOERROR` alone; a configured list, even an
empty one, accepts the codes of its names, and nothing when a name is
unknown. -/
theorem validRcode_eq_true_iff (stringToRcode : String → Option Int) (rcode : Int)
    (valid : Option (List String)) :
    validRcode stringToRcode rcode valid = true ↔
      match valid with
      | none => rcode = (stringToRcode "NOERROR").getD 0
      | some names => (∀ name ∈ names, (stringToRcode name).isSome) ∧
          ∃ name ∈ names, stringToRcode name = some rcode := by
  cases valid with
  | none => simp [validRcode, eq_comm]
  | some names =>
      cases looked : rcodesOf stringToRcode names with
      | none =>
          have unknown := (rcodesOf_isSome_iff stringToRcode names).not.mp (by simp [looked])
          simp only [validRcode, looked, Bool.false_eq_true, false_iff, not_and]
          exact fun known => absurd known unknown
      | some codes =>
          have known := (rcodesOf_isSome_iff stringToRcode names).mp (by simp [looked])
          simp only [validRcode, looked, List.elem_iff, List.contains,
            mem_of_rcodesOf looked]
          exact ⟨fun found => ⟨known, found⟩, fun both => both.2⟩

def someRcodes (name : String) : Option Int :=
  if name = "NOERROR" then some 0
  else if name = "SERVFAIL" then some 2
  else if name = "NXDOMAIN" then some 3
  else none

/-- A configured but empty `ValidRcodes` has no entries, yet it rejects
`NOERROR`: only a nil list falls back to it. -/
theorem validRcode_empty_rejects_noerror :
    ¬ ∀ (stringToRcode : String → Option Int) (rcode : Int)
        (valid : Option (List String)),
      validRcode stringToRcode rcode valid = true ↔
        (∀ name ∈ valid.getD [], (stringToRcode name).isSome) ∧
          ((valid.getD [] = [] ∧ rcode = (stringToRcode "NOERROR").getD 0) ∨
            ∃ name ∈ valid.getD [], stringToRcode name = some rcode) := by
  intro law
  have accepted := (law someRcodes 0 (some [])).mpr
    ⟨by simp, Or.inl ⟨rfl, rfl⟩⟩
  simp [validRcode, rcodesOf] at accepted

/-! ### The probe -/

structure Response where
  rcode : Int
  answer : List RR
  ns : List RR
  extra : List RR
  deriving DecidableEq, Repr

structure Question where
  name : String
  qtype : Nat
  deriving DecidableEq, Repr

def isFqdn (name : String) : Bool :=
  match name.data.reverse with
  | '.' :: before => (before.takeWhile (· == '\\')).length % 2 == 0
  | _ => false

def fqdn (name : String) : String :=
  if isFqdn name then name else name ++ "."

/-- What `ProbeDNS` asks of its surroundings: `net.ResolveIPAddr(network, host)`,
`IP.String()`, the tables `dns.StringToType` and `dns.StringToRcode`, and
`client.Exchange` over a network to an address, `none` for an error, a timeout
included. -/
structure DNSEnv where
  resolveIPAddr : String → String → Option IPAddr
  ipString : IPAddr → String
  stringToType : String → Option Nat
  stringToRcode : String → Option Int
  exchange : String → String → Question → Option Response

/-- Modelled from the spec: `chooseProtocol` is not under `src/`. The target
is resolved in the preferred family first and, when that fails, in the
other one. -/
def chooseProtocol (resolveIPAddr : String → String → Option IPAddr)
    (preferredIPProtocol target : String) : Option IPAddr :=
  match resolveIPAddr preferredIPProtocol target with
  | some ip => some ip
  | none => resolveIPAddr (if preferredIPProtocol = "ip6" then "ip4" else "ip6") target

def splitTarget (target : String) : String × String :=
  match splitHostPort target with
  | some hostPort => hostPort
  | none => (target, "53")

/-- What `ProbeDNS` returns and the record counts its deferred function
exports. -/
structure Result where
  success : Bool
  answerRRs : Nat
  authorityRRs : Nat
  additionalRRs : Nat
  deriving DecidableEq, Repr

def probeDNS (engine : Regexp) (env : DNSEnv) (target : String) (module : Module) :
    Result :=
  let transport :=
    if module.dns.transportProtocol = "" then "udp" else module.dns.transportProtocol
  let failed : Result := ⟨false, 0, 0, 0⟩
  if transport = "udp" || transport = "tcp" then
    let (targetAddr, port) := splitTarget target
    match chooseProtocol env.resolveIPAddr module.dns.preferredIPProtocol targetAddr with
    | none => failed
    | some ip =>
        let target := joinHostPort (env.ipString ip) port
        let dialProtocol := transport ++ (if ip.to4 = none then "6" else "4")
        let qt :=
          if module.dns.queryType = "" then some 255
          else env.stringToType module.dns.queryType
        match qt with
        | none => failed
        | some qt =>
            match env.exchange dialProtocol target ⟨fqdn module.dns.queryName, qt⟩ with
            | none => failed
            | some response =>
                ⟨validRcode env.stringToRcode response.rcode module.dns.validRcodes &&
                    validRRs engine response.answer module.dns.validateAnswer &&
                    validRRs engine response.ns module.dns.validateAuthority &&
                    validRRs engine response.extra module.dns.validateAdditional,
                  response.answer.length, response.ns.length, response.extra.length⟩
  else failed


/-- After the exchange the verdict is the rcode check and the three section
checks, which see only which records each section holds. -/
theorem verdict_of_same_records (engine : Regexp) (stringToRcode : String → Option Int)
    (dns : DNSProbe) {response reordered : Response}
    (sameRcode : reordered.rcode = response.rcode)
    (sameRecords : ∀ rr, (rr ∈ reordered.answer ↔ rr ∈ response.answer) ∧
      (rr ∈ reordered.ns ↔ rr ∈ response.ns) ∧ (rr ∈ reordered.extra ↔ rr ∈ response.extra)) :
    (validRcode stringToRcode reordered.rcode dns.validRcodes &&
        validRRs engine reordered.answer dns.validateAnswer &&
        validRRs engine reordered.ns dns.validateAuthority &&
        validRRs engine reordered.extra dns.validateAdditional) =
      (validRcode stringToRcode response.rcode dns.validRcodes &&
        validRRs engine response.answer dns.validateAnswer &&
        validRRs engine response.ns dns.validateAuthority &&
        validRRs engine response.extra dns.validateAdditional) := by
  have sameVerdict : ∀ {first second : List RR}, (∀ rr, rr ∈ first ↔ rr ∈ second) →
      ∀ v, validRRs engine first v = validRRs engine second v := by
    intro first second same v
    have sameEmpty : first.length = 0 ↔ second.length = 0 := by
      simp only [List.length_eq_zero, List.eq_nil_iff_forall_not_mem, same]
    simp only [validRRs, validRRsLoop_eq_of_same_records engine v same, sameEmpty]
  rw [sameRcode, sameVerdict fun rr => (sameRecords rr).1,
    sameVerdict fun rr => (sameRecords rr).2.1, sameVerdict fun rr => (sameRecords rr).2.2]

/-- Servers reorder the records of a section between queries, and may repeat
them: whatever a server does to the order and the repetitions within each
section, the verdict of `ProbeDNS` stays the same. -/
theorem probeDNS_success_of_same_records (engine : Regexp) (env : DNSEnv) (target : String)
    (module : Module) (reorder : Response → Response)
    (sameRcode : ∀ response, (reorder response).rcode = response.rcode)
    (sameRecords : ∀ response rr, (rr ∈ (reorder response).answer ↔ rr ∈ response.answer) ∧
      (rr ∈ (reorder response).ns ↔ rr ∈ response.ns) ∧
      (rr ∈ (reorder response).extra ↔ rr ∈ response.extra)) :
    (probeDNS engine { env with exchange := fun network address question =>
        (env.exchange network address question).map reorder } target module).success =
      (probeDNS engine env target module).success := by
  -- every path but the exchange is shared
  simp only [probeDNS]
  generalize (if module.dns.transportProtocol = "" then "udp"
    else module.dns.transportProtocol) = transport
  generalize (if module.dns.queryType = "" then some 255
    else env.stringToType module.dns.queryType) = queryType
  split
  case isFalse => rfl
  case isTrue =>
    obtain ⟨targetAddr, port⟩ := splitTarget target
    cases chooseProtocol env.resolveIPAddr module.dns.preferredIPProtocol targetAddr with
    | none => rfl
    | some ip =>
        cases queryType with
        | none => rfl
        | some qt =>
            dsimp only
            cases env.exchange (transport ++ if ip.to4 = none then "6" else "4")
                (joinHostPort (env.ipString ip) port) ⟨fqdn module.dns.queryName, qt⟩ with
            | none => rfl
            | some response =>
                exact verdict_of_same_records engine env.stringToRcode module.dns
                  (sameRcode response) (sameRecords response)

def answeringEnv (response : Response) : DNSEnv :=
  { resolveIPAddr := fun _ _ => some ⟨[192, 0, 2, 53]⟩
    ipString := fun _ => "192.0.2.53"
    stringToType := fun _ => none
    stringToRcode := someRcodes
    exchange := fun _ _ _ => some response }

def reverseSections (response : Response) : Response :=
  { response with
    answer := response.answer.reverse
    ns := response.ns.reverse
    extra := response.extra.reverse }

def answerMustMatch : Module :=
  { Module.zero with dns := { DNSProbe.zero with validateAnswer := ⟨[], ["a"]⟩ } }

theorem probeDNS_reversed_sections_example :
    (∀ response, (reverseSections response).rcode = response.rcode) ∧
      (∀ response rr, (rr ∈ (reverseSections response).answer ↔ rr ∈ response.answer) ∧
        (rr ∈ (reverseSections response).ns ↔ rr ∈ response.ns) ∧
        (rr ∈ (reverseSections response).extra ↔ rr ∈ response.extra)) ∧
      (probeDNS exactEngine { answeringEnv ⟨0, [⟨"a.example."⟩, ⟨"b.example."⟩], [], []⟩ with
          exchange := fun network address question =>
            ((answeringEnv ⟨0, [⟨"a.example."⟩, ⟨"b.example."⟩], [], []⟩).exchange network
              address question).map reverseSections } "192.0.2.53" answerMustMatch).success =
        (probeDNS exactEngine (answeringEnv ⟨0, [⟨"a.example."⟩, ⟨"b.example."⟩], [], []⟩)
          "192.0.2.53" answerMustMatch).success ∧
      (probeDNS exactEngine (answeringEnv ⟨0, [⟨"a.example."⟩, ⟨"b.example."⟩], [], []⟩)
          "192.0.2.53" answerMustMatch).success = false :=
  have sameRcode : ∀ response, (reverseSections response).rcode = response.rcode :=
    fun _ => rfl
  have sameRecords : ∀ response rr,
      (rr ∈ (reverseSections response).answer ↔ rr ∈ response.answer) ∧
        (rr ∈ (reverseSections response).ns ↔ rr ∈ response.ns) ∧
        (rr ∈ (reverseSections response).extra ↔ rr ∈ response.extra) := by
    simp [reverseSections]
  ⟨sameRcode, sameRecords, probeDNS_success_of_same_records exactEngine
    (answeringEnv ⟨0, [⟨"a.example."⟩, ⟨"b.example."⟩], [], []⟩) "192.0.2.53" answerMustMatch
    reverseSections sameRcode sameRecords, by decide⟩

end BlackboxExporter.Dns
