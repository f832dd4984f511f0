import Mathlib.Data.List.Nodup

/-! The module configuration as the probers read it.

Only the fields some prober reads are kept. A Go `map[string]string` is a
list of entries with distinct keys, and the probers see its entries in
whatever order map iteration visits them. `ValidRcodes` keeps the difference
between a nil slice and an empty one, which `validRcode` tests. Go's `regexp`
package enters as an engine: compiling a pattern may fail, and a compiled
pattern matches some texts. -/

namespace BlackboxExporter

/-- Go's `regexp` as the probers use it: `regexp.Compile` and `Match`. -/
structure Regexp where
  compile : String → Option (String → Bool)

def Regexp.matchString (engine : Regexp) (pattern text : String) : Option Bool :=
  (engine.compile pattern).map fun matcher => matcher text

inductive Violation where
  | compileError
  | matchFailed
  deriving DecidableEq, Repr

/-- The pattern loops of `matchRegularExpressions` and `validRRs`: the
patterns in order, stopping at the first that does not compile or whose match
on `text` is `failWhen`. -/
def Regexp.firstViolation (engine : Regexp) (text : String) (failWhen : Bool) :
    List String → Option Violation
  | [] => none
  | pattern :: rest =>
      match engine.compile pattern with
      | none => some .compileError
      | some matcher =>
          if matcher text = failWhen then some .matchFailed
          else engine.firstViolation text failWhen rest

theorem Regexp.firstViolation_eq_none_iff (engine : Regexp) (text : String)
    (failWhen : Bool) (patterns : List String) :
    engine.firstViolation text failWhen patterns = none ↔
      ∀ pattern ∈ patterns, ∃ matcher, engine.compile pattern = some matcher ∧
        matcher text = !failWhen := by
  induction patterns with
  | nil => simp [firstViolation]
  | cons pattern rest inductionHypothesis =>
      simp only [firstViolation, List.mem_cons, forall_eq_or_imp]
      cases compiled : engine.compile pattern with
      | none => simp
      | some matcher =>
          by_cases fails : matcher text = failWhen
          · simp [fails]
          · have flipped : matcher text = !failWhen := by
              revert fails
              cases matcher text <;> cases failWhen <;> decide
            simp [fails, flipped, inductionHypothesis]

structure StringMap where
  entries : List (String × String)
  keysNodup : (entries.map Prod.fst).Nodup

/-- An order in which `range` may visit the map: each entry once. -/
def StringMap.Visits (headers : StringMap) (order : List (String × String)) : Prop :=
  order.Perm headers.entries

structure HTTPProbe where
  validStatusCodes : List Int
  preferredIPProtocol : String
  noFollowRedirects : Bool
  failIfSSL : Bool
  failIfNotSSL : Bool
  method : String
  headers : StringMap
  failIfMatchesRegexp : List String
  failIfNotMatchesRegexp : List String
  body : String
  protocol : String

structure DNSRRValidator where
  failIfMatchesRegexp : List String
  failIfNotMatchesRegexp : List String

structure DNSProbe where
  preferredIPProtocol : String
  transportProtocol : String
  queryName : String
  queryType : String
  /-- `none` is a nil slice: the option was not configured. -/
  validRcodes : Option (List String)
  validateAnswer : DNSRRValidator
  validateAuthority : DNSRRValidator
  validateAdditional : DNSRRValidator

structure ICMPProbe where
  protocol : String
  preferredIPProtocol : String

structure Module where
  http : HTTPProbe
  dns : DNSProbe
  icmp : ICMPProbe

def HTTPProbe.zero : HTTPProbe :=
  { validStatusCodes := []
    preferredIPProtocol := ""
    noFollowRedirects := false
    failIfSSL := false
    failIfNotSSL := false
    method := ""
    headers := ⟨[], List.nodup_nil⟩
    failIfMatchesRegexp := []
    failIfNotMatchesRegexp := []
    body := ""
    protocol := "" }

def DNSRRValidator.zero : DNSRRValidator := ⟨[], []⟩

def DNSProbe.zero : DNSProbe :=
  { preferredIPProtocol := ""
    transportProtocol := ""
    queryName := ""
    queryType := ""
    validRcodes := none
    validateAnswer := DNSRRValidator.zero
    validateAuthority := DNSRRValidator.zero
    validateAdditional := DNSRRValidator.zero }

def Module.zero : Module :=
  { http := HTTPProbe.zero
    dns := DNSProbe.zero
    icmp := ⟨"", ""⟩ }

end BlackboxExporter
