import Mathlib.Data.List.Basic
import BlackboxExporter.Go.Strings

/-! Go library address parsing that the probers run on a target.

`net.SplitHostPort` and `net.JoinHostPort` as package net computes them, and
the part of `url.Parse` that yields `URL.Host`: the fragment, scheme and query
cuts, the authority after `//`, the user information before the last `@`, and
`parseHost` with its checks and its unescaping of the host. A decoded byte is
kept as the character of that code, so a byte from `0x80` on stands for
itself rather than for part of a multi-byte rune. Error texts are not
modelled: every caller in the probers only tests whether an error occurred.
Strings are cut at ASCII bytes, which never occur inside a multi-byte rune,
so cutting runes cuts the same places. -/

namespace BlackboxExporter.Go

/-! ### Byte search -/

def indexByte : List Char → Char → Option Nat
  | [], _ => none
  | c :: rest, byte => if c = byte then some 0 else (indexByte rest byte).map (· + 1)

/-- `last` of package net: the last position of `byte`. -/
def lastIndexByte : List Char → Char → Option Nat
  | [], _ => none
  | c :: rest, byte =>
      match lastIndexByte rest byte with
      | some position => some (position + 1)
      | none => if c = byte then some 0 else none

theorem indexByte_eq_none {text : List Char} {byte : Char} (absent : byte ∉ text) :
    indexByte text byte = none := by
  induction text with
  | nil => rfl
  | cons c rest inductionHypothesis =>
      have different : c ≠ byte := fun same => absent (same ▸ List.mem_cons_self c rest)
      simp [indexByte, different,
        inductionHypothesis (fun inside => absent (List.mem_cons_of_mem c inside))]

theorem indexByte_append {before after : List Char} {byte : Char}
    (absent : byte ∉ before) :
    indexByte (before ++ byte :: after) byte = some before.length := by
  induction before with
  | nil => simp [indexByte]
  | cons c rest inductionHypothesis =>
      have different : c ≠ byte := fun same => absent (same ▸ List.mem_cons_self c rest)
      simp [indexByte, different,
        inductionHypothesis (fun inside => absent (List.mem_cons_of_mem c inside))]

theorem lastIndexByte_eq_none {text : List Char} {byte : Char} (absent : byte ∉ text) :
    lastIndexByte text byte = none := by
  induction text with
  | nil => rfl
  | cons c rest inductionHypothesis =>
      have different : c ≠ byte := fun same => absent (same ▸ List.mem_cons_self c rest)
      simp [lastIndexByte, different,
        inductionHypothesis (fun inside => absent (List.mem_cons_of_mem c inside))]

theorem lastIndexByte_append {before after : List Char} {byte : Char}
    (absent : byte ∉ after) :
    lastIndexByte (before ++ byte :: after) byte = some before.length := by
  induction before with
  | nil => simp [lastIndexByte, lastIndexByte_eq_none absent]
  | cons c rest inductionHypothesis => simp [lastIndexByte, inductionHypothesis]

theorem lastIndexByte_append_of_not_mem {before after : List Char} {byte : Char}
    (absent : byte ∉ after) :
    lastIndexByte (before ++ after) byte = lastIndexByte before byte := by
  induction before with
  | nil => exact lastIndexByte_eq_none absent
  | cons c rest inductionHypothesis => simp [lastIndexByte, inductionHypothesis]

theorem lastIndexByte_lt {text : List Char} {byte : Char} {position : Nat}
    (found : lastIndexByte text byte = some position) : position < text.length := by
  induction text generalizing position with
  | nil => cases found
  | cons c rest inductionHypothesis =>
      simp only [lastIndexByte] at found
      split at found
      · cases found
        simpa using inductionHypothesis ‹_›
      · split at found <;> cases found
        simp

/-! ### Host and port -/

/-- `net.SplitHostPort`; `none` for each of its address errors. After a
leading `[` the first `]` must stand right before the last colon: the
library's other two cases (a `]` that ends the text, or one followed by
something else) are both errors. -/
def splitHostPort (hostport : String) : Option (String × String) :=
  let text := hostport.data
  match lastIndexByte text ':' with
  | none => none
  | some colon =>
      let hostAndBounds : Option (List Char × Nat × Nat) :=
        if text.head? = some '[' then
          match indexByte text ']' with
          | none => none
          | some close =>
              if close + 1 = colon then some ((text.take close).drop 1, 1, close + 1)
              else none
        else
          let host := text.take colon
          if ':' ∈ host then none else some (host, 0, 0)
      match hostAndBounds with
      | none => none
      | some (host, afterOpen, afterClose) =>
          if '[' ∈ text.drop afterOpen then none
          else if ']' ∈ text.drop afterClose then none
          else some (⟨host⟩, ⟨text.drop (colon + 1)⟩)

theorem splitHostPort_name {host port : List Char} (hostColon : ':' ∉ host)
    (hostOpen : '[' ∉ host) (hostClose : ']' ∉ host) (portColon : ':' ∉ port)
    (portOpen : '[' ∉ port) (portClose : ']' ∉ port) :
    splitHostPort ⟨host ++ ':' :: port⟩ = some (⟨host⟩, ⟨port⟩) := by
  have notBracket : (host ++ ':' :: port).head? ≠ some '[' := fun head =>
    absurd (List.mem_of_mem_head? head) (by simp [hostOpen, portOpen])
  simp only [splitHostPort, lastIndexByte_append portColon, notBracket, if_false]
  simp [hostColon, hostOpen, hostClose, portOpen, portClose]

theorem splitHostPort_bracket {host port : List Char} (hostOpen : '[' ∉ host)
    (hostClose : ']' ∉ host) (portColon : ':' ∉ port) (portOpen : '[' ∉ port)
    (portClose : ']' ∉ port) :
    splitHostPort ⟨'[' :: host ++ ']' :: ':' :: port⟩ = some (⟨host⟩, ⟨port⟩) := by
  have colon : lastIndexByte ('[' :: host ++ ']' :: ':' :: port) ':' =
      some (host.length + 2) := by
    simpa using (lastIndexByte_append portColon :
      lastIndexByte (('[' :: host ++ [']']) ++ ':' :: port) ':' = _)
  have close : indexByte ('[' :: host ++ ']' :: ':' :: port) ']' = some (host.length + 1) :=
    indexByte_append (by simpa using hostClose)
  simp only [splitHostPort, colon, close, List.head?_cons, if_true]
  simp [hostOpen, hostClose, portOpen, portClose]

theorem splitHostPort_no_colon {text : List Char} (noColon : ':' ∉ text) :
    splitHostPort ⟨text⟩ = none := by
  simp only [splitHostPort, lastIndexByte_eq_none noColon]

theorem splitHostPort_bracket_alone {host : List Char} (hostClose : ']' ∉ host) :
    splitHostPort ⟨'[' :: host ++ [']']⟩ = none := by
  have close : indexByte ('[' :: host ++ [']']) ']' = some (host.length + 1) :=
    indexByte_append (by simpa using hostClose)
  cases colon : lastIndexByte ('[' :: host ++ [']']) ':' with
  | none => simp only [splitHostPort, colon]
  | some position =>
      have inside : position < host.length + 1 := by
        rw [List.cons_append, ← List.cons_append,
          lastIndexByte_append_of_not_mem (by decide)] at colon
        simpa using lastIndexByte_lt colon
      have apart : host.length + 1 + 1 ≠ position := by omega
      have opens : ('[' :: host ++ [']']).head? = some '[' := rfl
      simp only [splitHostPort, colon, close, opens, if_true, apart, if_false]

def joinHostPort (host port : String) : String :=
  if ':' ∈ host.data then "[" ++ host ++ "]:" ++ port else host ++ ":" ++ port

structure IPAddr where
  ip : List UInt8
  deriving DecidableEq, Repr

/-- `IP.To4`: the four bytes of an IPv4 address, also of one written in its
IPv6 mapped form. -/
def IPAddr.to4 (addr : IPAddr) : Option (List UInt8) :=
  if addr.ip.length = 4 then some addr.ip
  else if addr.ip.length = 16 && (addr.ip.take 10).all (· == 0) &&
      addr.ip[10]? == some 0xff && addr.ip[11]? == some 0xff then
    some (addr.ip.drop 12)
  else none

/-! ### `url.Parse` -/

/-- The field of `url.URL` that the probers and `http.NewRequest` read. -/
structure URL where
  host : String
  deriving DecidableEq, Repr

inductive Encoding where
  | path
  | userPassword
  | host
  | zone
  | fragment
  deriving DecidableEq, Repr

def isHex (c : Char) : Bool :=
  c.isDigit || ('a' ≤ c && c ≤ 'f') || ('A' ≤ c && c ≤ 'F')

def unhex (c : Char) : Nat :=
  if c.isDigit then c.toNat - 48
  else if 'a' ≤ c && c ≤ 'f' then c.toNat - 87
  else if 'A' ≤ c && c ≤ 'F' then c.toNat - 55
  else 0

/-- `shouldEscape` under the host and zone encodings, the only ones whose
answer `unescape` consults. Code 39 is the apostrophe. -/
def hostShouldEscape (c : Char) : Bool :=
  !(c.isAlphanum || "!$&()*+,;=:[]<>-_.~".data.contains c || c.toNat == 34 ||
    c.toNat == 39)

/-- The checks `unescape` makes before decoding: every `%` starts two hex
digits; a host may escape only non-ASCII bytes and `%25`; a zone may escape
a space, `%25`, or a byte a host may write; an ASCII byte of a host or zone
must be one a host may write. -/
def unescapeValid (mode : Encoding) : List Char → Bool
  | [] => true
  | '%' :: high :: low :: rest =>
      isHex high && isHex low &&
        (mode != .host || 8 ≤ unhex high || (high == '2' && low == '5')) &&
        (mode != .zone || (high == '2' && low == '5') ||
          unhex high * 16 + unhex low == 32 ||
          !hostShouldEscape (Char.ofNat (unhex high * 16 + unhex low))) &&
        unescapeValid mode rest
  | '%' :: _ => false
  | c :: rest =>
      ((mode != .host && mode != .zone) || 0x80 ≤ c.toNat || !hostShouldEscape c) &&
        unescapeValid mode rest

/-- The decoding pass of `unescape`, run once its checks have passed: an
escape becomes the byte `unhex(s[i+1])<<4 | unhex(s[i+2])`, and `+` stays, as
it does outside a query component. -/
def unescapeBytes : List Char → List Char
  | '%' :: high :: low :: rest => Char.ofNat (unhex high * 16 + unhex low) :: unescapeBytes rest
  | c :: rest => c :: unescapeBytes rest
  | [] => []

def unescape (mode : Encoding) (s : List Char) : Option (List Char) :=
  if unescapeValid mode s then some (unescapeBytes s) else none

def getschemeFrom (rawurl : List Char) : List Char → List Char →
    Option (List Char × List Char)
  | _, [] => some ([], rawurl)
  | scheme, c :: rest =>
      if c.isAlpha then getschemeFrom rawurl (scheme ++ [c]) rest
      else if c.isDigit || c == '+' || c == '-' || c == '.' then
        if scheme = [] then some ([], rawurl)
        else getschemeFrom rawurl (scheme ++ [c]) rest
      else if c == ':' then
        if scheme = [] then none else some (scheme, rest)
      else some ([], rawurl)

def getscheme (rawurl : List Char) : Option (List Char × List Char) :=
  getschemeFrom rawurl [] rawurl

def validOptionalPort : List Char → Bool
  | [] => true
  | ':' :: digits => digits.all Char.isDigit
  | _ => false

/-- `strings.Index(text, "%25")`. -/
def indexPercent25 : List Char → Option Nat
  | [] => none
  | '%' :: '2' :: '5' :: _ => some 0
  | _ :: rest => (indexPercent25 rest).map (· + 1)

/-- `parseHost`: a bracketed literal with an optional port and zone, or a
name whose text after the last colon is a port; the host comes back
unescaped, a zone under its own rules. -/
def parseHost (host : List Char) : Option (List Char) :=
  if host.head? = some '[' then
    match lastIndexByte host ']' with
    | none => none
    | some close =>
        if !validOptionalPort (host.drop (close + 1)) then none
        else
          match indexPercent25 (host.take close) with
          | some zone =>
              match unescape .host (host.take zone),
                  unescape .zone ((host.take close).drop zone),
                  unescape .host (host.drop close) with
              | some host1, some host2, some host3 => some (host1 ++ host2 ++ host3)
              | _, _, _ => none
          | none => unescape .host host
  else
    match lastIndexByte host ':' with
    | some colon =>
        if !validOptionalPort (host.drop colon) then none
        else unescape .host host
    | none => unescape .host host

def validUserinfo (userinfo : List Char) : Bool :=
  userinfo.all fun c =>
    c.isAlphanum || "-._:~!$&()*+,;=%@".data.contains c || c.toNat == 39

def parseAuthority (authority : List Char) : Option (List Char) :=
  match lastIndexByte authority '@' with
  | none => parseHost authority
  | some atSign =>
      let userinfo := authority.take atSign
      match parseHost (authority.drop (atSign + 1)) with
      | none => none
      | some host =>
          if !validUserinfo userinfo then none
          else
            let escapesValid :=
              match indexByte userinfo ':' with
              | none => unescapeValid .userPassword userinfo
              | some colon =>
                  unescapeValid .userPassword (userinfo.take colon) &&
                    unescapeValid .userPassword (userinfo.drop (colon + 1))
            if escapesValid then some host else none

/-- `split(s, sep, cutc)` of package url at the first `sep`. -/
def splitAt (text : List Char) (sep : Char) (cutc : Bool) : List Char × List Char :=
  match indexByte text sep with
  | none => (text, [])
  | some position =>
      if cutc then (text.take position, text.drop (position + 1))
      else (text.take position, text.drop position)

/-- `parse(rawurl, false)` of package url, which `url.Parse` calls on the
text before `#`. -/
def parse (rawurl : List Char) : Option URL :=
  if rawurl.any (fun b => b.toNat < 0x20 || b.toNat == 0x7F) then none
  else if rawurl = ['*'] then some ⟨""⟩
  else
    match getscheme rawurl with
    | none => none
    | some (scheme, afterScheme) =>
        let rest :=
          if afterScheme.getLast? = some '?' && afterScheme.count '?' == 1 then
            afterScheme.dropLast
          else (splitAt afterScheme '?' true).1
        let colonInFirstSegment :=
          match indexByte rest ':', indexByte rest '/' with
          | some colon, some slash => colon < slash
          | some _, none => true
          | none, _ => false
        let rooted := ['/'].isPrefixOf rest
        if !rooted && scheme != [] then some ⟨""⟩
        else if !rooted && colonInFirstSegment then none
        else if (scheme != [] || !(['/', '/', '/'].isPrefixOf rest)) &&
            ['/', '/'].isPrefixOf rest then
          let (authority, path) := splitAt (rest.drop 2) '/' false
          match parseAuthority authority with
          | none => none
          | some host => if unescapeValid .path path then some ⟨⟨host⟩⟩ else none
        else if unescapeValid .path rest then some ⟨""⟩
        else none

def urlParse (rawurl : String) : Option URL :=
  let (text, fragment) := splitAt rawurl.data '#' true
  match parse text with
  | none => none
  | some url => if unescapeValid .fragment fragment then some url else none

/-! ### What `url.Parse` makes of a plain URL

A URL of the targets the probers are given here: `http://` or `https://`,
an authority of letters, digits, unreserved marks, colons and brackets, and
a path of letters, digits, unreserved marks and slashes. No character of it
is cut at, escaped or refused, so the authority becomes `URL.Host` as
written. -/

/-- Characters of a written host and port: letters, digits, the unreserved
marks, the colon and the brackets of an IPv6 literal. -/
def isHostChar (c : Char) : Bool := c.isAlphanum || "-._~:[]".data.contains c

def isPathChar (c : Char) : Bool := c.isAlphanum || "-._~/".data.contains c

def isURLChar (c : Char) : Bool := isHostChar c || c == '/'

def isControl (c : Char) : Bool := c.toNat < 0x20 || c.toNat == 0x7F

theorem not_mem_of_forall {p : Char → Bool} {text : List Char} {c : Char}
    (all : ∀ x ∈ text, p x = true) (excluded : p c = false) : c ∉ text :=
  fun inside => by simp [all c inside] at excluded

theorem toNat_of_isAlphanum {c : Char} (alnum : c.isAlphanum = true) :
    48 ≤ c.toNat ∧ c.toNat ≤ 122 := by
  simp only [Char.isAlphanum, Char.isAlpha, Char.isUpper, Char.isLower, Char.isDigit,
    Bool.or_eq_true, Bool.and_eq_true, decide_eq_true_eq, UInt32.le_def, BitVec.le_def,
    UInt32.toBitVec_ofNat, BitVec.toNat_ofNat] at alnum
  simp only [Char.toNat, UInt32.toNat]
  omega

theorem isAlphanum_of_isHex {c : Char} (hex : isHex c = true) : c.isAlphanum = true := by
  simp only [isHex, Bool.or_eq_true, Bool.and_eq_true, decide_eq_true_eq] at hex
  simp only [Char.isAlphanum, Char.isAlpha, Char.isUpper, Char.isLower, Char.isDigit,
    Bool.or_eq_true, Bool.and_eq_true, decide_eq_true_eq, Char.le_def, UInt32.le_def,
    BitVec.le_def] at hex ⊢
  have lowerA : 'a'.val.toBitVec.toNat = 97 := rfl
  have lowerF : 'f'.val.toBitVec.toNat = 102 := rfl
  have upperA : 'A'.val.toBitVec.toNat = 65 := rfl
  have upperF : 'F'.val.toBitVec.toNat = 70 := rfl
  simp only [lowerA, lowerF, upperA, upperF, UInt32.toBitVec_ofNat, BitVec.toNat_ofNat] at hex ⊢
  omega

theorem isHostChar_of_isDigit {c : Char} (digit : c.isDigit = true) : isHostChar c = true := by
  simp [isHostChar, Char.isAlphanum, digit]

theorem isURLChar_of_isHostChar {c : Char} (hostChar : isHostChar c = true) :
    isURLChar c = true := by
  simp [isURLChar, hostChar]

theorem isURLChar_of_isPathChar {c : Char} (pathChar : isPathChar c = true) :
    isURLChar c = true := by
  simp only [isPathChar, Bool.or_eq_true] at pathChar
  rcases pathChar with alnum | listed
  · simp [isURLChar, isHostChar, alnum]
  · exact (by decide : ∀ x ∈ "-._~/".data, isURLChar x = true) c (by simpa using listed)

theorem isControl_of_isURLChar {c : Char} (urlChar : isURLChar c = true) :
    isControl c = false := by
  simp only [isURLChar, isHostChar, Bool.or_eq_true, beq_iff_eq] at urlChar
  rcases urlChar with (alnum | listed) | slash
  · have := toNat_of_isAlphanum alnum
    simp only [isControl, Bool.or_eq_false_iff, decide_eq_false_iff_not, beq_eq_false_iff_ne]
    omega
  · exact (by decide : ∀ x ∈ "-._~:[]".data, isControl x = false) c (by simpa using listed)
  · rw [slash]
    rfl

theorem hostShouldEscape_of_isHostChar {c : Char} (hostChar : isHostChar c = true) :
    hostShouldEscape c = false := by
  simp only [isHostChar, Bool.or_eq_true] at hostChar
  rcases hostChar with alnum | listed
  · simp [hostShouldEscape, alnum]
  · exact (by decide : ∀ x ∈ "-._~:[]".data, hostShouldEscape x = false) c
      (by simpa using listed)

@[simp] theorem unescapeValid_nil (mode : Encoding) : unescapeValid mode [] = true := rfl

theorem unescapeValid_cons_of_ne {mode : Encoding} {c : Char} (rest : List Char)
    (notPercent : c ≠ '%') :
    unescapeValid mode (c :: rest) =
      (((mode != .host && mode != .zone) || 0x80 ≤ c.toNat || !hostShouldEscape c) &&
        unescapeValid mode rest) :=
  unescapeValid.eq_4 mode c rest (fun _ _ _ same => absurd same notPercent) notPercent

theorem unescapeValid_of_forall {mode : Encoding} {text : List Char}
    (noPercent : '%' ∉ text)
    (allowed : ∀ c ∈ text, ((mode != .host && mode != .zone) || !hostShouldEscape c) = true) :
    unescapeValid mode text = true := by
  induction text with
  | nil => rfl
  | cons c rest inductionHypothesis =>
      have notPercent : c ≠ '%' := fun same => noPercent (same ▸ List.mem_cons_self c rest)
      have passes := allowed c (List.mem_cons_self c rest)
      rw [unescapeValid_cons_of_ne rest notPercent,
        inductionHypothesis (fun inside => noPercent (List.mem_cons_of_mem c inside))
          (fun x inside => allowed x (List.mem_cons_of_mem c inside))]
      simp only [Bool.or_eq_true] at passes
      rcases passes with plain | escapeFree
      · simp [plain]
      · simp [escapeFree]

theorem unescapeValid_host {text : List Char} (hostChars : ∀ c ∈ text, isHostChar c = true) :
    unescapeValid .host text = true :=
  unescapeValid_of_forall (not_mem_of_forall hostChars (by decide))
    (fun c inside => by simp [hostShouldEscape_of_isHostChar (hostChars c inside)])

theorem unescapeBytes_cons_of_ne {c : Char} (rest : List Char) (notPercent : c ≠ '%') :
    unescapeBytes (c :: rest) = c :: unescapeBytes rest :=
  unescapeBytes.eq_2 c rest fun _ _ _ same => absurd same notPercent

theorem unescapeBytes_of_not_mem {text : List Char} (noPercent : '%' ∉ text) :
    unescapeBytes text = text := by
  induction text with
  | nil => rfl
  | cons c rest inductionHypothesis =>
      have notPercent : c ≠ '%' := fun same => noPercent (same ▸ List.mem_cons_self c rest)
      rw [unescapeBytes_cons_of_ne rest notPercent,
        inductionHypothesis (fun inside => noPercent (List.mem_cons_of_mem c inside))]

theorem unescape_host_of_isHostChar {text : List Char}
    (hostChars : ∀ c ∈ text, isHostChar c = true) : unescape .host text = some text := by
  rw [unescape, if_pos (unescapeValid_host hostChars),
    unescapeBytes_of_not_mem (not_mem_of_forall hostChars (by decide))]

theorem unescapeValid_path {text : List Char} (pathChars : ∀ c ∈ text, isPathChar c = true) :
    unescapeValid .path text = true :=
  unescapeValid_of_forall (not_mem_of_forall pathChars (by decide)) (fun _ _ => rfl)

theorem indexPercent25_eq_none {text : List Char} (noPercent : '%' ∉ text) :
    indexPercent25 text = none := by
  induction text with
  | nil => rfl
  | cons c rest inductionHypothesis =>
      have notPercent : c ≠ '%' := fun same => noPercent (same ▸ List.mem_cons_self c rest)
      rw [indexPercent25.eq_3 c rest (fun _ same _ => absurd same notPercent),
        inductionHypothesis (fun inside => noPercent (List.mem_cons_of_mem c inside))]
      rfl

theorem getscheme_http (rest : List Char) :
    getscheme ("http".data ++ ':' :: rest) = some ("http".data, rest) := rfl

theorem getscheme_https (rest : List Char) :
    getscheme ("https".data ++ ':' :: rest) = some ("https".data, rest) := rfl

theorem validOptionalPort_cases {port : List Char} (valid : validOptionalPort port = true) :
    port = [] ∨ ∃ digits, port = ':' :: digits ∧ ∀ c ∈ digits, c.isDigit = true := by
  unfold validOptionalPort at valid
  split at valid
  · exact .inl rfl
  · exact .inr ⟨_, rfl, List.all_eq_true.mp valid⟩
  · cases valid

theorem mem_of_validOptionalPort {port : List Char} (valid : validOptionalPort port = true)
    {c : Char} (inside : c ∈ port) : c = ':' ∨ c.isDigit = true := by
  rcases validOptionalPort_cases valid with rfl | ⟨digits, rfl, digitsOnly⟩
  · cases inside
  · exact (List.mem_cons.mp inside).imp_right (digitsOnly c)

theorem not_mem_of_validOptionalPort {port : List Char} (valid : validOptionalPort port = true)
    {c : Char} (notColon : c ≠ ':') (notDigit : c.isDigit = false) : c ∉ port := fun inside =>
  (mem_of_validOptionalPort valid inside).elim notColon (by simp [notDigit])

theorem isHostChar_of_validOptionalPort {port : List Char}
    (valid : validOptionalPort port = true) {c : Char} (inside : c ∈ port) :
    isHostChar c = true :=
  (mem_of_validOptionalPort valid inside).elim (fun colon => colon ▸ rfl) isHostChar_of_isDigit

theorem parseHost_name {host port : List Char} (hostChars : ∀ c ∈ host, isHostChar c = true)
    (hostColon : ':' ∉ host) (hostOpen : '[' ∉ host)
    (portValid : validOptionalPort port = true) :
    parseHost (host ++ port) = some (host ++ port) := by
  have chars : ∀ c ∈ host ++ port, isHostChar c = true := fun c inside =>
    (List.mem_append.mp inside).elim (hostChars c) (isHostChar_of_validOptionalPort portValid)
  have notBracket : (host ++ port).head? ≠ some '[' := fun head =>
    absurd (List.mem_of_mem_head? head) (by
      simpa [hostOpen] using not_mem_of_validOptionalPort (c := '[') portValid (by decide) rfl)
  unfold parseHost
  rw [if_neg notBracket]
  rcases validOptionalPort_cases portValid with rfl | ⟨digits, rfl, digitsOnly⟩
  · rw [List.append_nil] at chars ⊢
    simp [lastIndexByte_eq_none hostColon, unescape_host_of_isHostChar chars]
  · rw [lastIndexByte_append (not_mem_of_forall (c := ':') digitsOnly rfl)]
    simp [portValid, unescape_host_of_isHostChar chars]

theorem parseHost_bracket {host port : List Char} (hostChars : ∀ c ∈ host, isHostChar c = true)
    (portValid : validOptionalPort port = true) :
    parseHost ('[' :: host ++ ']' :: port) = some ('[' :: host ++ ']' :: port) := by
  have chars : ∀ c ∈ '[' :: host ++ ']' :: port, isHostChar c = true := by
    simp only [List.cons_append, List.mem_cons, List.mem_append]
    rintro c (rfl | inHost | rfl | inPort)
    · rfl
    · exact hostChars c inHost
    · rfl
    · exact isHostChar_of_validOptionalPort portValid inPort
  have close : lastIndexByte ('[' :: host ++ ']' :: port) ']' = some (host.length + 1) :=
    lastIndexByte_append (not_mem_of_validOptionalPort (c := ']') portValid (by decide) rfl)
  have noZone : indexPercent25 ('[' :: host) = none :=
    indexPercent25_eq_none (not_mem_of_forall (fun c inside =>
      chars c (List.mem_append_left _ inside)) rfl)
  have opens : ('[' :: host ++ ']' :: port).head? = some '[' := rfl
  unfold parseHost
  rw [if_pos opens, close]
  simpa [portValid, noZone] using unescape_host_of_isHostChar chars

theorem splitAt_of_not_mem {text : List Char} {sep : Char} {cutc : Bool} (absent : sep ∉ text) :
    splitAt text sep cutc = (text, []) := by
  simp [splitAt, indexByte_eq_none absent]

theorem splitAt_append {before after : List Char} {sep : Char} (absent : sep ∉ before)
    (front : after = [] ∨ after.head? = some sep) :
    splitAt (before ++ after) sep false = (before, after) := by
  rcases front with rfl | front
  · simpa using splitAt_of_not_mem absent
  · obtain ⟨rest, rfl⟩ : ∃ rest, after = sep :: rest := by
      cases after with
      | nil => cases front
      | cons c rest => exact ⟨rest, by simpa using front⟩
    simp [splitAt, indexByte_append absent]

/-- `url.Parse` of `http://` or `https://`, an authority of host characters
that `parseHost` accepts, and a plain path: the host is the authority. -/
theorem urlParse_authority {scheme hostport path : List Char}
    (knownScheme : scheme = "http".data ∨ scheme = "https".data)
    (hostChars : ∀ c ∈ hostport, isHostChar c = true)
    (hostParsed : parseHost hostport = some hostport)
    (pathStart : path = [] ∨ path.head? = some '/')
    (pathChars : ∀ c ∈ path, isPathChar c = true) :
    urlParse ⟨scheme ++ ':' :: '/' :: '/' :: (hostport ++ path)⟩ = some ⟨⟨hostport⟩⟩ := by
  have afterScheme : ∀ c ∈ '/' :: '/' :: (hostport ++ path), isURLChar c = true := by
    simp only [List.mem_cons, List.mem_append]
    rintro c (rfl | rfl | inHost | inPath)
    · rfl
    · rfl
    · exact isURLChar_of_isHostChar (hostChars c inHost)
    · exact isURLChar_of_isPathChar (pathChars c inPath)
  have schemeChars : ∀ c ∈ scheme ++ [':'], isURLChar c = true := by
    rcases knownScheme with rfl | rfl <;> decide
  have textChars : ∀ c ∈ scheme ++ ':' :: '/' :: '/' :: (hostport ++ path),
      isURLChar c = true := by
    intro c inside
    rw [← List.singleton_append, ← List.append_assoc] at inside
    exact (List.mem_append.mp inside).elim (schemeChars c) (afterScheme c)
  have noControl : (scheme ++ ':' :: '/' :: '/' :: (hostport ++ path)).any
      (fun b => b.toNat < 0x20 || b.toNat == 0x7F) = false :=
    List.any_eq_false.mpr fun c inside => by
      simpa [isControl] using isControl_of_isURLChar (textChars c inside)
  have notStar : scheme ++ ':' :: '/' :: '/' :: (hostport ++ path) ≠ ['*'] := by
    rcases knownScheme with rfl | rfl <;> simp
  have schemeSplit : getscheme (scheme ++ ':' :: '/' :: '/' :: (hostport ++ path)) =
      some (scheme, '/' :: '/' :: (hostport ++ path)) := by
    rcases knownScheme with rfl | rfl
    · exact getscheme_http _
    · exact getscheme_https _
  have noQuery : '?' ∉ '/' :: '/' :: (hostport ++ path) :=
    not_mem_of_forall afterScheme rfl
  have schemeNonempty : scheme ≠ [] := by rcases knownScheme with rfl | rfl <;> simp
  have authority : splitAt (hostport ++ path) '/' false = (hostport, path) :=
    splitAt_append (not_mem_of_forall (c := '/') hostChars rfl) pathStart
  simp [urlParse, splitAt_of_not_mem (not_mem_of_forall (c := '#') textChars rfl), parse,
    noControl, notStar, schemeSplit, List.count_eq_zero.mpr noQuery,
    splitAt_of_not_mem noQuery, schemeNonempty, authority, parseAuthority,
    lastIndexByte_eq_none (not_mem_of_forall (c := '@') hostChars rfl), hostParsed,
    unescapeValid_path pathChars]

/-! ### What `url.Parse` never puts in a host

In a host or a zone `unescape` lets through bytes above ASCII and ASCII
characters a host may write, and decodes only escapes of bytes above ASCII,
of `%` itself, of a space in a zone, or of a byte a host may write. None of
these is a delimiter of the path, the query, the fragment or the user
information, so no target hands one to `URL.Host`. -/

theorem not_delimiter_of_allowed {c : Char}
    (allowed : 0x80 ≤ c.toNat ∨ hostShouldEscape c = false) :
    c ∉ ['/', '?', '#', '@'] := fun delimiter => by
  have ascii := (by decide : ∀ x ∈ ['/', '?', '#', '@'],
    x.toNat < 0x80 ∧ hostShouldEscape x = true) c delimiter
  rcases allowed with high | allowed
  · omega
  · simp [ascii.2] at allowed

theorem unhex_lt (c : Char) : unhex c < 16 := by
  unfold unhex
  simp only [Char.isDigit, Bool.and_eq_true, decide_eq_true_eq, Char.le_def, UInt32.le_def,
    BitVec.le_def]
  have lowerF : 'f'.val.toBitVec.toNat = 102 := rfl
  have upperF : 'F'.val.toBitVec.toNat = 70 := rfl
  have nine : '9'.val.toBitVec.toNat = 57 := rfl
  simp only [lowerF, upperF, nine, UInt32.toBitVec_ofNat, BitVec.toNat_ofNat, Char.toNat,
    UInt32.toNat]
  split_ifs <;> omega

theorem not_delimiter_of_escape {mode : Encoding} (hostMode : mode = .host ∨ mode = .zone)
    {high low : Char}
    (hostEscape : (mode != .host || 8 ≤ unhex high || (high == '2' && low == '5')) = true)
    (zoneEscape : (mode != .zone || (high == '2' && low == '5') ||
      unhex high * 16 + unhex low == 32 ||
      !hostShouldEscape (Char.ofNat (unhex high * 16 + unhex low))) = true) :
    Char.ofNat (unhex high * 16 + unhex low) ∉ ['/', '?', '#', '@'] := by
  have code : (Char.ofNat (unhex high * 16 + unhex low)).toNat = unhex high * 16 + unhex low :=
    toNat_ofNat_of_lt (by have := unhex_lt high; have := unhex_lt low; omega)
  rcases hostMode with rfl | rfl
  · simp only [bne_self_eq_false, Bool.false_or, Bool.or_eq_true, decide_eq_true_eq,
      Bool.and_eq_true, beq_iff_eq] at hostEscape
    rcases hostEscape with above | ⟨rfl, rfl⟩
    · exact not_delimiter_of_allowed (Or.inl (by omega))
    · decide
  · simp only [bne_self_eq_false, Bool.false_or, Bool.or_eq_true, Bool.and_eq_true,
      beq_iff_eq, Bool.not_eq_true'] at zoneEscape
    rcases zoneEscape with (⟨rfl, rfl⟩ | space) | allowed
    · decide
    · rw [space]
      decide
    · exact not_delimiter_of_allowed (Or.inr allowed)

theorem not_delimiter_of_unescape {mode : Encoding} (hostMode : mode = .host ∨ mode = .zone)
    {text decoded : List Char} (accepted : unescape mode text = some decoded) :
    ∀ c ∈ decoded, c ∉ ['/', '?', '#', '@'] := by
  rw [unescape] at accepted
  split at accepted
  case isFalse => cases accepted
  case isTrue valid =>
    cases accepted
    induction text using unescapeValid.induct mode with
    | case1 => simp [unescapeBytes]
    | case2 high low rest inductionHypothesis =>
        simp only [unescapeValid, Bool.and_eq_true] at valid
        obtain ⟨⟨⟨-, hostEscape⟩, zoneEscape⟩, restValid⟩ := valid
        intro c member
        rcases List.mem_cons.mp member with rfl | member
        · exact not_delimiter_of_escape hostMode hostEscape zoneEscape
        · exact inductionHypothesis restValid c member
    | case3 tail short =>
        rw [unescapeValid.eq_3 mode tail short] at valid
        cases valid
    | case4 c rest notPair notPercent inductionHypothesis =>
        rw [unescapeValid.eq_4 mode c rest notPair notPercent, Bool.and_eq_true] at valid
        rw [unescapeBytes_cons_of_ne rest notPercent]
        intro other member
        rcases List.mem_cons.mp member with rfl | member
        · apply not_delimiter_of_allowed
          rcases hostMode with rfl | rfl <;> simpa using valid.1
        · exact inductionHypothesis valid.2 other member

theorem not_delimiter_of_parseHost {host parsed : List Char}
    (accepted : parseHost host = some parsed) : ∀ c ∈ parsed, c ∉ ['/', '?', '#', '@'] := by
  unfold parseHost at accepted
  repeat' split at accepted
  all_goals first
    | exact not_delimiter_of_unescape (Or.inl rfl) accepted
    | -- a bracketed host with a zone: three parts, each decoded
      cases accepted
      intro c member
      simp only [List.mem_append] at member
      rcases member with (front | inZone) | back
      · exact not_delimiter_of_unescape (Or.inl rfl) ‹_› c front
      · exact not_delimiter_of_unescape (Or.inr rfl) ‹_› c inZone
      · exact not_delimiter_of_unescape (Or.inl rfl) ‹_› c back
    | cases accepted

theorem not_delimiter_of_parseAuthority {authority parsed : List Char}
    (accepted : parseAuthority authority = some parsed) :
    ∀ c ∈ parsed, c ∉ ['/', '?', '#', '@'] := by
  unfold parseAuthority at accepted
  split at accepted
  · exact not_delimiter_of_parseHost accepted
  · split at accepted
    · cases accepted
    · rename_i host hostParsed
      simp only at accepted
      split at accepted
      · cases accepted
      · split at accepted
        · cases accepted
          exact not_delimiter_of_parseHost hostParsed
        · cases accepted

theorem host_of_parse {text : List Char} {url : URL} (parsed : parse text = some url) :
    url.host = "" ∨ ∃ authority, parseAuthority authority = some url.host.data := by
  rw [parse] at parsed
  by_cases control : (text.any fun b => b.toNat < 0x20 || b.toNat == 0x7F) = true
  · rw [if_pos control] at parsed
    cases parsed
  rw [if_neg control] at parsed
  by_cases star : text = ['*']
  · rw [if_pos star] at parsed
    cases parsed
    exact Or.inl rfl
  rw [if_neg star] at parsed
  split at parsed
  · cases parsed
  rename_i scheme afterScheme _
  generalize (if afterScheme.getLast? = some '?' && afterScheme.count '?' == 1 then
      afterScheme.dropLast else (splitAt afterScheme '?' true).1) = rest at parsed
  dsimp only at parsed
  generalize splitAt (rest.drop 2) '/' false = parts at parsed
  obtain ⟨authority, path⟩ := parts
  -- an opaque URL, a colon in the first segment, an authority, or a path
  split at parsed
  · cases parsed
    exact Or.inl rfl
  split at parsed
  · cases parsed
  split at parsed
  · split at parsed
    · cases parsed
    · split at parsed <;> cases parsed
      exact Or.inr ⟨authority, ‹_›⟩
  · split at parsed <;> cases parsed
    exact Or.inl rfl

theorem not_delimiter_of_urlParse {rawurl : String} {url : URL}
    (parsed : urlParse rawurl = some url) : ∀ c ∈ url.host.data, c ∉ ['/', '?', '#', '@'] := by
  unfold urlParse at parsed
  generalize splitAt rawurl.data '#' true = parts at parsed
  obtain ⟨text, fragment⟩ := parts
  simp only at parsed
  split at parsed
  · cases parsed
  · rename_i parsedText
    split_ifs at parsed
    cases parsed
    rcases host_of_parse parsedText with empty | ⟨authority, accepted⟩
    · simp [empty]
    · exact not_delimiter_of_parseAuthority accepted

theorem mem_of_splitHostPort {hostport host port : String}
    (split : splitHostPort hostport = some (host, port)) :
    ∀ c ∈ host.data, c ∈ hostport.data := by
  unfold splitHostPort at split
  simp only at split
  split at split
  · cases split
  split at split
  · cases split
  rename_i bounds hostText afterOpen afterClose hostAndBounds
  split_ifs at split
  cases split
  split at hostAndBounds
  · split at hostAndBounds
    · cases hostAndBounds
    · split_ifs at hostAndBounds
      cases hostAndBounds
      exact fun c member => List.mem_of_mem_take (List.mem_of_mem_drop member)
  · split_ifs at hostAndBounds
    cases hostAndBounds
    exact fun c member => List.mem_of_mem_take member

end BlackboxExporter.Go
