import BlackboxExporter.Http.Probe
import BlackboxExporter.Dns.Probe

/-! The host each prober hands to name resolution, over every target shape.

A target writes its host as a DNS name, an IPv4 literal or a bracketed IPv6
literal, with an optional `:port`; `probeHTTP` also takes `http://` or
`https://` in front and a path behind. `probeHTTP` parses the URL and splits
`URL.Host`, `ProbeDNS` splits the target itself, and both fall back to the
whole text when `net.SplitHostPort` fails. The split fails exactly when
there is no port: a name then comes through as written, and an IPv6 literal
keeps its brackets. -/

namespace BlackboxExporter

open Go

/-- The host of a target: a DNS name or an IPv4 literal, or an IPv6 literal
written in brackets. -/
inductive TargetHost where
  | name (text : List Char)
  | ipv6 (text : List Char)
  deriving DecidableEq, Repr

namespace TargetHost

def isNameChar (c : Char) : Bool := c.isAlphanum || c == '-' || c == '.'

def isIPv6Char (c : Char) : Bool := isHex c || c == ':' || c == '.'

def Valid : TargetHost → Prop
  | name text => text ≠ [] ∧ ∀ c ∈ text, isNameChar c = true
  | ipv6 text => text ≠ [] ∧ ∀ c ∈ text, isIPv6Char c = true

def bare : TargetHost → List Char
  | name text => text
  | ipv6 text => text

def written : TargetHost → List Char
  | name text => text
  | ipv6 text => '[' :: text ++ [']']

theorem isHostChar_of_isNameChar {c : Char} (nameChar : isNameChar c = true) :
    isHostChar c = true := by
  simp only [isNameChar, Bool.or_eq_true, beq_iff_eq] at nameChar
  rcases nameChar with (alnum | rfl) | rfl
  · simp [isHostChar, alnum]
  · rfl
  · rfl

theorem isHostChar_of_isIPv6Char {c : Char} (ipv6Char : isIPv6Char c = true) :
    isHostChar c = true := by
  simp only [isIPv6Char, Bool.or_eq_true, beq_iff_eq] at ipv6Char
  rcases ipv6Char with (hex | rfl) | rfl
  · simp [isHostChar, isAlphanum_of_isHex hex]
  · rfl
  · rfl

end TargetHost

/-- A target `host[:port]`; a port is a non-empty run of digits. -/
structure Target where
  host : TargetHost
  port : Option (List Char)
  hostValid : host.Valid
  portDigits : ∀ digits ∈ port, digits ≠ [] ∧ ∀ c ∈ digits, c.isDigit = true

namespace Target

def portSuffix (target : Target) : List Char :=
  match target.port with
  | none => []
  | some digits => ':' :: digits

def hostport (target : Target) : List Char :=
  target.host.written ++ target.portSuffix

def text (target : Target) : String := ⟨target.hostport⟩

theorem validOptionalPort_portSuffix (target : Target) :
    validOptionalPort target.portSuffix = true := by
  obtain ⟨host, _ | digits, hostValid, portDigits⟩ := target
  · rfl
  · exact List.all_eq_true.mpr (portDigits digits rfl).2

theorem isHostChar_of_mem_hostport {target : Target} {c : Char}
    (inside : c ∈ target.hostport) : isHostChar c = true := by
  rcases List.mem_append.mp inside with inHost | inPort
  · obtain ⟨_ | text, port, ⟨_, hostChars⟩, portDigits⟩ := target
    · exact TargetHost.isHostChar_of_isNameChar (hostChars c inHost)
    · simp only [TargetHost.written, List.cons_append, List.mem_cons, List.mem_append,
        List.not_mem_nil, or_false] at inHost
      rcases inHost with rfl | inText | rfl
      · rfl
      · exact TargetHost.isHostChar_of_isIPv6Char (hostChars c inText)
      · rfl
  · exact isHostChar_of_validOptionalPort target.validOptionalPort_portSuffix inPort

theorem splitHostPort_hostport (target : Target) :
    splitHostPort ⟨target.hostport⟩ =
      target.port.map fun digits => (⟨target.host.bare⟩, ⟨digits⟩) := by
  obtain ⟨_ | text, _ | digits, ⟨_, hostChars⟩, portDigits⟩ := target
  · simpa [hostport, portSuffix, TargetHost.written] using
      splitHostPort_no_colon (not_mem_of_forall hostChars rfl)
  · have digitsOnly := (portDigits digits rfl).2
    exact splitHostPort_name (not_mem_of_forall hostChars rfl)
      (not_mem_of_forall hostChars rfl) (not_mem_of_forall hostChars rfl)
      (not_mem_of_forall digitsOnly rfl) (not_mem_of_forall digitsOnly rfl)
      (not_mem_of_forall digitsOnly rfl)
  · simpa [hostport, portSuffix, TargetHost.written] using
      splitHostPort_bracket_alone (not_mem_of_forall hostChars rfl)
  · have digitsOnly := (portDigits digits rfl).2
    simpa [hostport, portSuffix, TargetHost.written] using
      splitHostPort_bracket (not_mem_of_forall hostChars rfl)
        (not_mem_of_forall hostChars rfl) (not_mem_of_forall digitsOnly rfl)
        (not_mem_of_forall digitsOnly rfl) (not_mem_of_forall digitsOnly rfl)

theorem parseHost_hostport (target : Target) :
    parseHost target.hostport = some target.hostport := by
  have portValid := target.validOptionalPort_portSuffix
  obtain ⟨_ | text, port, ⟨_, hostChars⟩, portDigits⟩ := target
  · exact parseHost_name
      (fun c inside => TargetHost.isHostChar_of_isNameChar (hostChars c inside))
      (not_mem_of_forall hostChars rfl) (not_mem_of_forall hostChars rfl) portValid
  · simpa [hostport, TargetHost.written] using parseHost_bracket
      (fun c inside => TargetHost.isHostChar_of_isIPv6Char (hostChars c inside)) portValid

end Target

theorem targetHost_eq_fallback (url : URL) :
    Http.targetHost url = ((splitHostPort url.host).map Prod.fst).getD url.host := by
  unfold Http.targetHost
  cases splitHostPort url.host <;> rfl

theorem splitTarget_fst_eq_fallback (target : String) :
    (Dns.splitTarget target).1 = ((splitHostPort target).map Prod.fst).getD target := by
  unfold Dns.splitTarget
  cases splitHostPort target <;> rfl

theorem Target.fallback_text (target : Target) :
    ((splitHostPort target.text).map Prod.fst).getD target.text =
      ⟨if target.port.isSome then target.host.bare else target.host.written⟩ := by
  rw [text, splitHostPort_hostport]
  cases port : target.port with
  | none => simp [hostport, portSuffix, port]
  | some digits => rfl

/-- The host `ProbeDNS` hands to `chooseProtocol`: the bare host when the
target has a port, the host as written when it has none. -/
theorem splitTarget_text (target : Target) :
    (Dns.splitTarget target.text).1 =
      ⟨if target.port.isSome then target.host.bare else target.host.written⟩ := by
  rw [splitTarget_fst_eq_fallback, target.fallback_text]

/-- A target of `probeHTTP`: `http://`, `https://` or no scheme, a target,
and a path that is empty or starts with a slash. -/
structure HTTPTarget where
  scheme : Option String
  target : Target
  path : List Char
  schemeKnown : ∀ s ∈ scheme, s = "http" ∨ s = "https"
  pathStart : path = [] ∨ path.head? = some '/'
  pathChars : ∀ c ∈ path, isPathChar c = true

namespace HTTPTarget

def schemePrefix (httpTarget : HTTPTarget) : List Char :=
  match httpTarget.scheme with
  | none => []
  | some scheme => scheme.data ++ "://".data

def text (httpTarget : HTTPTarget) : String :=
  ⟨httpTarget.schemePrefix ++ httpTarget.target.hostport ++ httpTarget.path⟩

private theorem not_prefix_of_first_colon {scheme before : List Char} (rest after : List Char)
    {d : Char} (schemeColon : ':' ∉ scheme) (beforeColon : ':' ∉ before) (notSlash : d ≠ '/') :
    ¬ (scheme ++ ':' :: '/' :: rest) <+: (before ++ ':' :: d :: after) := by
  rintro ⟨tail, same⟩
  rw [List.append_assoc, List.cons_append] at same
  have colons := congrArg (indexByte · ':') same
  simp only [indexByte_append schemeColon, indexByte_append beforeColon,
    Option.some.injEq] at colons
  have slash := (List.append_inj same colons).2
  simp only [List.cons_append, List.cons.injEq, true_and] at slash
  exact notSlash slash.1.symm

private theorem not_prefix_hostport (target : Target) {path : List Char}
    (pathChars : ∀ c ∈ path, isPathChar c = true) (scheme rest : List Char)
    (schemeColon : ':' ∉ scheme) (schemeHead : scheme.head? = some 'h') :
    ¬ (scheme ++ ':' :: '/' :: rest) <+: (target.hostport ++ path) := by
  obtain ⟨scheme, rfl⟩ : ∃ tail, scheme = 'h' :: tail := by
    cases scheme with
    | nil => cases schemeHead
    | cons h tail => exact ⟨tail, by simpa using schemeHead⟩
  obtain ⟨text | text, _ | digits, ⟨_, hostChars⟩, portDigits⟩ := target
  · intro prefixed
    have colon : ':' ∈ text ++ path := by
      simpa [Target.hostport, Target.portSuffix, TargetHost.written] using
        prefixed.subset (List.mem_append_right _ (List.mem_cons_self ':' _))
    rcases List.mem_append.mp colon with inText | inPath
    · exact not_mem_of_forall (c := ':') hostChars rfl inText
    · exact not_mem_of_forall (c := ':') pathChars rfl inPath
  · obtain ⟨d, digits, rfl⟩ := List.exists_cons_of_ne_nil (portDigits digits rfl).1
    have notSlash : d ≠ '/' := fun same =>
      absurd ((portDigits _ rfl).2 d (List.mem_cons_self d digits)) (by rw [same]; decide)
    simpa [Target.hostport, Target.portSuffix, TargetHost.written] using
      not_prefix_of_first_colon rest (digits ++ path) schemeColon
        (not_mem_of_forall hostChars rfl) notSlash
  all_goals simp [Target.hostport, TargetHost.written]

theorem normalizeTarget_text (httpTarget : HTTPTarget) :
    ∃ scheme, (scheme = "http".data ∨ scheme = "https".data) ∧
      Http.normalizeTarget httpTarget.text =
        ⟨scheme ++ ':' :: '/' :: '/' :: (httpTarget.target.hostport ++ httpTarget.path)⟩ := by
  obtain ⟨_ | scheme, target, path, schemeKnown, _, pathChars⟩ := httpTarget
  · have notHttp : "http://".data.isPrefixOf (target.hostport ++ path) = false :=
      Bool.eq_false_iff.mpr fun prefixed => not_prefix_hostport target pathChars "http".data
        ['/'] (by decide) rfl (List.isPrefixOf_iff_prefix.mp prefixed)
    have notHttps : "https://".data.isPrefixOf (target.hostport ++ path) = false :=
      Bool.eq_false_iff.mpr fun prefixed => not_prefix_hostport target pathChars "https".data
        ['/'] (by decide) rfl (List.isPrefixOf_iff_prefix.mp prefixed)
    refine ⟨"http".data, .inl rfl, ?_⟩
    show (if ("http://".data.isPrefixOf (target.hostport ++ path) ||
        "https://".data.isPrefixOf (target.hostport ++ path)) = true then _
      else "http://" ++ ⟨target.hostport ++ path⟩) = _
    rw [notHttp, notHttps]
    rfl
  · refine ⟨scheme.data, (schemeKnown scheme rfl).imp (congrArg String.data)
      (congrArg String.data), ?_⟩
    have prefixed : ("http://".data.isPrefixOf (scheme.data ++ "://".data ++ target.hostport ++ path) ||
        "https://".data.isPrefixOf (scheme.data ++ "://".data ++ target.hostport ++ path)) = true := by
      rcases schemeKnown scheme rfl with rfl | rfl <;> simp [List.isPrefixOf_iff_prefix]
    show (if ("http://".data.isPrefixOf (scheme.data ++ "://".data ++ target.hostport ++ path) ||
        "https://".data.isPrefixOf (scheme.data ++ "://".data ++ target.hostport ++ path)) = true
      then _ else _) = _
    rw [if_pos prefixed]
    simp only [text, schemePrefix, List.append_assoc]
    rfl

end HTTPTarget

/-- The host `probeHTTP` hands to `net.ResolveIPAddr`: the bare host when
the target has a port, the host as written when it has none. -/
theorem resolutionHost_text (httpTarget : HTTPTarget) :
    Http.resolutionHost (Http.normalizeTarget httpTarget.text) =
      some ⟨if httpTarget.target.port.isSome then httpTarget.target.host.bare
        else httpTarget.target.host.written⟩ := by
  obtain ⟨scheme, knownScheme, normalized⟩ := httpTarget.normalizeTarget_text
  have hostChars : ∀ c ∈ httpTarget.target.hostport, isHostChar c = true :=
    fun _ inside => Target.isHostChar_of_mem_hostport inside
  have pathChars : ∀ c ∈ httpTarget.path, isPathChar c = true := httpTarget.pathChars
  rw [Http.resolutionHost, normalized, urlParse_authority knownScheme hostChars
    httpTarget.target.parseHost_hostport httpTarget.pathStart pathChars, Option.map_some',
    targetHost_eq_fallback]
  exact congrArg some httpTarget.target.fallback_text

/-- Whatever the target, the host `probeHTTP` hands to `net.ResolveIPAddr`
holds no delimiter of a path, query, fragment or user information: none of the
target's other parts reaches name resolution. -/
theorem resolutionHost_no_delimiters {target host : String}
    (resolved : Http.resolutionHost target = some host) :
    ∀ c ∈ host.data, c ∉ ['/', '?', '#', '@'] := by
  obtain ⟨url, parsed, rfl⟩ := Option.map_eq_some'.mp resolved
  intro c member
  unfold Http.targetHost at member
  split at member
  · exact not_delimiter_of_urlParse parsed c (mem_of_splitHostPort ‹_› c member)
  · exact not_delimiter_of_urlParse parsed c member

theorem resolutionHost_zone_example :
    Http.resolutionHost "http://user@example.com:8080/path?query#top" = some "example.com" ∧
      Http.resolutionHost "http://[fe80::1%25en0]:80/" = some "fe80::1%en0" ∧
      ∀ c ∈ "fe80::1%en0".data, c ∉ ['/', '?', '#', '@'] :=
  have userinfo : Http.resolutionHost "http://user@example.com:8080/path?query#top" =
      some "example.com" := by decide
  have zone : Http.resolutionHost "http://[fe80::1%25en0]:80/" = some "fe80::1%en0" := by
    decide
  ⟨userinfo, zone, resolutionHost_no_delimiters zone⟩

/-- An IPv6 literal without a port reaches resolution with its brackets, in
`probeHTTP` and in `ProbeDNS`. -/
theorem resolution_keeps_ipv6_brackets :
    Http.resolutionHost (Http.normalizeTarget "http://[::1]/") = some "[::1]" ∧
      (Dns.splitTarget "[2001:db8::1]").1 = "[2001:db8::1]" := by
  decide

end BlackboxExporter
