import BlackboxExporter.Go.Strings
import BlackboxExporter.Go.Net
import BlackboxExporter.Config

/-! The request `probeHTTP` builds: `http.NewRequest` and the header loop.

The loop visits `config.Headers` in map order. A key whose `strings.Title`
is `Host` sets `request.Host`; any other key is `Header.Set`, which writes
the slot of its canonical form. Every write replaces its slot, so the loop's
result is the last write to each slot. Two visiting orders therefore agree
unless two keys with different values share a slot, and a key is taken for
the authority only in the spellings `host` and `Host`. -/

namespace BlackboxExporter.Http

open Go

abbrev Header := String → Option (List String)

def Header.empty : Header := fun _ => none

def Header.set (header : Header) (key value : String) : Header :=
  Function.update header (canonicalMIMEHeaderKey key) (some [value])

/-- The fields of `*http.Request` that `probeHTTP` writes and the client
sends. -/
structure Request where
  method : String
  url : URL
  host : String
  header : Header
  body : Option String

def validMethod (method : String) : Bool :=
  method != "" && method.data.all validHeaderFieldByte

def removeEmptyPort (host : String) : String :=
  let text := host.data
  let hasPort :=
    match lastIndexByte text ':', lastIndexByte text ']' with
    | some colon, some close => close < colon
    | some _, none => true
    | none, _ => false
  if hasPort && text.getLast? = some ':' then ⟨text.dropLast⟩ else host

def newRequest (method target : String) : Option Request :=
  let method := if method = "" then "GET" else method
  if !validMethod method then none
  else
    match urlParse target with
    | none => none
    | some url =>
        let host := removeEmptyPort url.host
        some
          { method := method
            url := { url with host := host }
            host := host
            header := Header.empty
            body := none }

/-! ### The header loop -/

def setHeader (request : Request) (entry : String × String) : Request :=
  if title entry.1 = "Host" then { request with host := entry.2 }
  else { request with header := request.header.set entry.1 entry.2 }

def setHeaders (request : Request) (order : List (String × String)) : Request :=
  order.foldl setHeader request

/-- Where the loop writes a key: `none` for the authority, or the canonical
header key. -/
def slot (key : String) : Option String :=
  if title key = "Host" then none else some (canonicalMIMEHeaderKey key)

@[simp] theorem setHeaders_nil (request : Request) :
    setHeaders request [] = request := rfl

@[simp] theorem setHeaders_cons (request : Request) (entry : String × String)
    (rest : List (String × String)) :
    setHeaders request (entry :: rest) = setHeaders (setHeader request entry) rest :=
  rfl

theorem setHeader_comm (request : Request) {first second : String × String}
    (apart : slot first.1 = slot second.1 → first.2 = second.2) :
    setHeader (setHeader request first) second =
      setHeader (setHeader request second) first := by
  by_cases firstHost : title first.1 = "Host" <;>
    by_cases secondHost : title second.1 = "Host"
  · have same : first.2 = second.2 := apart (by simp [slot, firstHost, secondHost])
    simp [setHeader, firstHost, secondHost, same]
  · simp [setHeader, firstHost, secondHost]
  · simp [setHeader, firstHost, secondHost]
  · simp only [setHeader, firstHost, secondHost, if_false, Request.mk.injEq,
      true_and, and_true]
    unfold Header.set
    by_cases sameKey :
        canonicalMIMEHeaderKey first.1 = canonicalMIMEHeaderKey second.1
    · rw [sameKey, apart (by simp [slot, firstHost, secondHost, sameKey])]
    · exact Function.update_comm sameKey _ _ _

/-- The loop leaves `request.Host` at the value of the last visited key
that `strings.Title` turns into `Host`, and at its old value when there is
none. -/
theorem setHeaders_host (request : Request) (order : List (String × String)) :
    (setHeaders request order).host =
      (((order.filter fun entry => title entry.1 = "Host").getLast?).map
        Prod.snd).getD request.host := by
  induction order generalizing request with
  | nil => rfl
  | cons entry rest inductionHypothesis =>
      rw [setHeaders_cons, inductionHypothesis]
      by_cases isHost : title entry.1 = "Host"
      · simp only [List.filter_cons, isHost, decide_True, if_true,
          List.getLast?_cons]
        cases (rest.filter fun entry => title entry.1 = "Host").getLast? <;>
          simp [setHeader, isHost]
      · simp [List.filter_cons, isHost, setHeader]

/-- The loop leaves each header slot at the value of the last visited key
that lands in it, and untouched when no key does. -/
theorem setHeaders_header (request : Request) (order : List (String × String))
    (key : String) :
    (setHeaders request order).header key =
      (((order.filter fun entry => slot entry.1 = some key).getLast?).map
        fun entry => [entry.2]).elim (request.header key) some := by
  induction order generalizing request with
  | nil => rfl
  | cons entry rest inductionHypothesis =>
      rw [setHeaders_cons, inductionHypothesis]
      by_cases lands : slot entry.1 = some key
      · have notHost : ¬title entry.1 = "Host" := by
          intro isHost
          simp [slot, isHost] at lands
        have canonical : canonicalMIMEHeaderKey entry.1 = key := by
          simpa [slot, notHost] using lands
        simp only [List.filter_cons, lands, decide_True, if_true,
          List.getLast?_cons]
        cases (rest.filter fun entry => slot entry.1 = some key).getLast? <;>
          simp [setHeader, notHost, Header.set, ← canonical]
      · simp only [List.filter_cons, lands, decide_False, Bool.false_eq_true,
          if_false]
        congr 1
        unfold setHeader
        split
        · rfl
        · have other : canonicalMIMEHeaderKey entry.1 ≠ key := by
            intro same
            simp_all [slot]
          simp [Header.set, Function.update_noteq (Ne.symm other)]

theorem setHeaders_host_of_forall (request : Request) {order : List (String × String)}
    (noAuthority : ∀ entry ∈ order, slot entry.1 ≠ none) :
    (setHeaders request order).host = request.host := by
  induction order generalizing request with
  | nil => rfl
  | cons entry rest inductionHypothesis =>
      have notHost : ¬title entry.1 = "Host" := fun isHost =>
        noAuthority entry (List.mem_cons_self _ _) (by simp [slot, isHost])
      rw [setHeaders_cons, inductionHypothesis _ fun later member =>
        noAuthority later (List.mem_cons_of_mem _ member)]
      simp [setHeader, notHost]

theorem setHeaders_header_of_forall (request : Request) {order : List (String × String)}
    {key : String} (elsewhere : ∀ entry ∈ order, slot entry.1 ≠ some key) :
    (setHeaders request order).header key = request.header key := by
  induction order generalizing request with
  | nil => rfl
  | cons entry rest inductionHypothesis =>
      rw [setHeaders_cons, inductionHypothesis _ fun later member =>
        elsewhere later (List.mem_cons_of_mem _ member)]
      have apart := elsewhere entry (List.mem_cons_self _ _)
      unfold setHeader
      split
      · rfl
      · have other : canonicalMIMEHeaderKey entry.1 ≠ key := fun same =>
          apart (by simp_all [slot])
        simp [Header.set, Function.update_noteq (Ne.symm other)]

/-- Any two orders in which map iteration may visit `config.Headers` give
the same request, as long as no two keys that land in the same slot carry
different values; in every order, the key visited last in a slot sets it. -/
theorem headerLoop_order_independent (headers : StringMap) (request : Request) :
    (∀ {first second : List (String × String)},
      headers.Visits first → headers.Visits second →
      (∀ x ∈ headers.entries, ∀ y ∈ headers.entries, slot x.1 = slot y.1 → x.2 = y.2) →
      setHeaders request first = setHeaders request second) ∧
    (∀ (before after : List (String × String)) (entry : String × String),
      (∀ later ∈ after, slot later.1 ≠ slot entry.1) →
      (slot entry.1 = none → (setHeaders request (before ++ entry :: after)).host = entry.2) ∧
      ∀ key, slot entry.1 = some key →
        (setHeaders request (before ++ entry :: after)).header key = some [entry.2]) := by
  constructor
  · intro first second visitFirst visitSecond noClash
    exact (visitFirst.trans visitSecond.symm).foldl_eq'
      (fun x visitedX y visitedY current =>
        setHeader_comm current
          (noClash x (visitFirst.subset visitedX) y (visitFirst.subset visitedY)))
      request
  · intro before after entry lastInSlot
    have split : setHeaders request (before ++ entry :: after) =
        setHeaders (setHeader (setHeaders request before) entry) after := by
      simp only [setHeaders, List.foldl_append, List.foldl_cons]
    rw [split]
    constructor
    · intro authority
      have isHost : title entry.1 = "Host" := by
        by_contra notHost
        simp [slot, notHost] at authority
      rw [setHeaders_host_of_forall _ fun later member => authority ▸ lastInSlot later member]
      simp [setHeader, isHost]
    · intro key lands
      have notHost : ¬title entry.1 = "Host" := fun isHost => by simp [slot, isHost] at lands
      have canonical : canonicalMIMEHeaderKey entry.1 = key := by
        simpa [slot, notHost] using lands
      rw [setHeaders_header_of_forall _ fun later member => lands ▸ lastInSlot later member]
      simp [setHeader, notHost, Header.set, canonical]

def exampleRequest : Request :=
  { method := "GET"
    url := ⟨"example.com"⟩
    host := "example.com"
    header := Header.empty
    body := none }

def authorityAndAccept : StringMap :=
  ⟨[("host", "probe.example"), ("Accept", "text/plain")], by decide⟩

theorem headerLoop_order_independent_example :
    authorityAndAccept.Visits authorityAndAccept.entries ∧
      authorityAndAccept.Visits (authorityAndAccept.entries.reverse) ∧
      (∀ x ∈ authorityAndAccept.entries, ∀ y ∈ authorityAndAccept.entries,
        slot x.1 = slot y.1 → x.2 = y.2) ∧
      setHeaders exampleRequest authorityAndAccept.entries =
        setHeaders exampleRequest authorityAndAccept.entries.reverse ∧
      (setHeaders exampleRequest ([("host", "a.example")] ++ ("Host", "b.example") :: [])).host =
        "b.example" :=
  have visitFirst : authorityAndAccept.Visits authorityAndAccept.entries :=
    List.Perm.refl _
  have visitSecond : authorityAndAccept.Visits authorityAndAccept.entries.reverse :=
    List.reverse_perm _
  have noClash : ∀ x ∈ authorityAndAccept.entries, ∀ y ∈ authorityAndAccept.entries,
      slot x.1 = slot y.1 → x.2 = y.2 := by decide
  ⟨visitFirst, visitSecond, noClash,
    (headerLoop_order_independent authorityAndAccept exampleRequest).1 visitFirst
      visitSecond noClash,
    ((headerLoop_order_independent authorityAndAccept exampleRequest).2 _ [] _
      (fun _ absent => absurd absent (List.not_mem_nil _))).1 (by decide)⟩

def hostTwice : StringMap :=
  ⟨[("host", "a.example"), ("Host", "b.example")], by decide⟩

/-- With `host` and `Host` both configured, the key visited last sets the
authority, so the two visiting orders disagree. -/
theorem headerLoop_order_matters :
    ¬ ∀ (headers : StringMap) (request : Request) (first second : List (String × String)),
      headers.Visits first → headers.Visits second →
      (setHeaders request first).host = (setHeaders request second).host ∧
        (setHeaders request first).header = (setHeaders request second).header := by
  intro orderFree
  have sameHost := (orderFree hostTwice exampleRequest hostTwice.entries
    hostTwice.entries.reverse (List.Perm.refl _) (List.reverse_perm _)).1
  have firstHost : (setHeaders exampleRequest hostTwice.entries).host = "b.example" := by
    decide
  have secondHost :
      (setHeaders exampleRequest hostTwice.entries.reverse).host = "a.example" := by
    decide
  rw [firstHost, secondHost] at sameHost
  exact absurd sameHost (by decide)

/-- The Host special case misses the spelling `HOST`: the authority keeps
its value and the key is sent as the `Host` header instead. -/
theorem headerLoop_HOST_sent_as_header (request : Request) (value : String) :
    (setHeaders request [("HOST", value)]).host = request.host ∧
      (setHeaders request [("HOST", value)]).header "Host" = some [value] := by
  have notHost : title "HOST" ≠ "Host" := by decide
  have canonical : canonicalMIMEHeaderKey "HOST" = "Host" := by decide
  simp [setHeader, notHost, Header.set, canonical]

end BlackboxExporter.Http
