import BlackboxExporter.Go.Net
import BlackboxExporter.Config
import BlackboxExporter.Icmp.Sequence

/-! `probeICMP` of `icmp.go`: one echo request, and the loop that reads until
the reply or the deadline.

The request is an `icmp.Message` marshalled as package icmp marshals it, and
the reply the probe waits for is the same message with the reply type. For
ICMPv6 `Marshal` leaves the checksum to the kernel, so the loop zeroes the
checksum of what it reads before it compares. The network enters as an
environment: resolution, the socket calls, and what `ReadFrom` returns before
the deadline, after which it times out. Time itself is not modelled, so
`probe_dns_lookup_time_seconds` is left out. `Marshal` cannot fail on an echo
message of these types, so the two marshalling errors never occur. -/

namespace BlackboxExporter.Icmp

open Go

/-! ### Messages -/

/-- The `icmp.Type` values the probe uses: `ipv4.ICMPTypeEcho` and
`ipv4.ICMPTypeEchoReply`, `ipv6.ICMPTypeEchoRequest` and
`ipv6.ICMPTypeEchoReply`. -/
inductive ICMPType where
  | echo
  | echoReply
  | echoRequest6
  | echoReply6
  deriving DecidableEq, Repr

def ICMPType.toByte : ICMPType → UInt8
  | echo => 8
  | echoReply => 0
  | echoRequest6 => 128
  | echoReply6 => 129

def ICMPType.isIPv6 : ICMPType → Bool
  | echoRequest6 | echoReply6 => true
  | echo | echoReply => false

structure Echo where
  id : Nat
  seq : Nat
  data : List UInt8
  deriving DecidableEq, Repr

structure Message where
  type : ICMPType
  code : Nat
  body : Echo
  deriving DecidableEq, Repr

def putUint16 (value : Nat) : List UInt8 :=
  [(value % 65536 / 256).toUInt8, value.toUInt8]

def Echo.marshal (p : Echo) : List UInt8 :=
  putUint16 p.id ++ putUint16 p.seq ++ p.data

/-- The loop of `checksum`, with its running sum `s`: the 16-bit words low
byte first, and an odd last byte on its own. -/
def checksumFrom (s : UInt32) : List UInt8 → UInt32
  | [] => s
  | [last] => s + last.toUInt32
  | low :: high :: rest => checksumFrom (s + ((high.toUInt32 <<< 8) ||| low.toUInt32)) rest

def checksum (b : List UInt8) : UInt16 :=
  let s := checksumFrom 0 b
  let s := (s >>> 16) + (s &&& 0xffff)
  let s := s + (s >>> 16)
  ~~~s.toUInt16

/-- `Message.Marshal(nil)`. An ICMPv6 message keeps a zero checksum; an ICMP
one gets its checksum, low byte first, in the zero bytes 2 and 3. -/
def Message.marshal (m : Message) : List UInt8 :=
  let b := [m.type.toByte, m.code.toUInt8, 0, 0] ++ m.body.marshal
  if m.type.isIPv6 then b
  else
    let s := checksum b
    [m.type.toByte, m.code.toUInt8, s.toUInt8, (s >>> 8).toUInt8] ++ m.body.marshal

def echoData : List UInt8 :=
  "Prometheus Blackbox Exporter".data.map fun c => c.toNat.toUInt8

/-! ### The read loop -/

/-- What one `socket.ReadFrom` before the deadline returns: an error other
than the deadline's timeout, or a packet and its peer. -/
inductive ReadEvent where
  | failed
  | packet (bytes : List UInt8) (peer : IPAddr)
  deriving DecidableEq, Repr

section ReadLoop

variable (ipString : IPAddr → String) (ip : IPAddr) (replyType : ICMPType)
  (wb : List UInt8)

/-- What the loop compares with `wb`: the bytes that fit in the 1500-byte
buffer, with the checksum zeroed for an ICMPv6 reply. -/
def received (bytes : List UInt8) : List UInt8 :=
  let rb := bytes.take 1500
  if replyType = .echoReply6 then (rb.set 2 0).set 3 0 else rb

def readLoop : List ReadEvent → Bool × String
  | [] => (false, "Timeout reading from socket")
  | .failed :: rest => readLoop rest
  | .packet bytes peer :: rest =>
      if ipString peer ≠ ipString ip then readLoop rest
      else if received replyType bytes = wb then (true, "")
      else readLoop rest

def isReply : ReadEvent → Bool
  | .failed => false
  | .packet bytes peer => ipString peer = ipString ip && received replyType bytes = wb

theorem readLoop_eq (events : List ReadEvent) :
    readLoop ipString ip replyType wb events =
      if events.any (isReply ipString ip replyType wb) then (true, "")
      else (false, "Timeout reading from socket") := by
  induction events with
  | nil => rfl
  | cons event rest inductionHypothesis =>
      cases event with
      | failed => simp [readLoop, isReply, inductionHypothesis]
      | packet bytes peer =>
          by_cases samePeer : ipString peer = ipString ip <;>
            by_cases isEcho : received replyType bytes = wb <;>
            simp [readLoop, isReply, samePeer, isEcho, inductionHypothesis]

end ReadLoop

/-! ### The probe -/

/-- What `probeICMP` asks of its surroundings: `net.ResolveIPAddr(network, host)`,
`IPAddr.String()`, whether `icmp.ListenPacket(network, address)` opens a
socket, `os.Getpid()`, whether `socket.WriteTo(b, ip)` sends the request and
`socket.SetReadDeadline` succeeds, and what `socket.ReadFrom` returns before
the deadline. -/
structure ICMPEnv where
  resolveIPAddr : String → String → Option IPAddr
  ipString : IPAddr → String
  listenPacket : String → String → Bool
  getpid : Nat
  writeTo : List UInt8 → IPAddr → Bool
  setReadDeadline : Bool
  reads : List ReadEvent

structure Result where
  success : Bool
  probeError : String
  ipProtocol : Option Nat
  deriving DecidableEq, Repr

def ipProtocols (config : ICMPProbe) : String × String :=
  let protocol := if config.protocol = "" then "icmp" else config.protocol
  let preferred :=
    if protocol = "icmp" && config.preferredIPProtocol = "" then "ip6"
    else config.preferredIPProtocol
  if protocol = "icmp4" then ("ip4", "")
  else if protocol = "icmp6" then ("ip6", "")
  else if preferred = "ip6" then (preferred, "ip4")
  else (preferred, "ip6")

def resolve (env : ICMPEnv) (config : ICMPProbe) (target : String) : Option IPAddr :=
  let (preferred, fallbackProtocol) := ipProtocols config
  match env.resolveIPAddr preferred target with
  | some ip => some ip
  | none => if fallbackProtocol ≠ "" then env.resolveIPAddr fallbackProtocol target else none

def echoRequest (pid : Nat) (ipv6 : Bool) (sequence : UInt16) : Message :=
  { type := if ipv6 then .echoRequest6 else .echo
    code := 0
    body := ⟨pid &&& 0xffff, sequence.toNat, echoData⟩ }

def replyType (ipv6 : Bool) : ICMPType :=
  if ipv6 then .echoReply6 else .echoReply

def expectedReply (pid : Nat) (ipv6 : Bool) (sequence : UInt16) : List UInt8 :=
  { echoRequest pid ipv6 sequence with type := replyType ipv6 }.marshal

def listen (env : ICMPEnv) (ipv6 : Bool) : Bool :=
  if ipv6 then env.listenPacket "ip6:ipv6-icmp" "::" else env.listenPacket "ip4:icmp" "0.0.0.0"

/-- `probeICMP`, given the value its call to `getICMPSequence` returned. -/
def probeICMP (env : ICMPEnv) (sequence : UInt16) (target : String) (module : Module) :
    Result :=
  match resolve env module.icmp target with
  | none => ⟨false, "Error resolving address", none⟩
  | some ip =>
      let ipv6 := ip.to4.isNone
      let ipProtocol := if ipv6 then 6 else 4
      if !listen env ipv6 then ⟨false, "Error listening to socket", some ipProtocol⟩
      else if !env.writeTo (echoRequest env.getpid ipv6 sequence).marshal ip then
        ⟨false, "Error writing to socket", some ipProtocol⟩
      else if !env.setReadDeadline then
        ⟨false, "Error setting socket deadline", some ipProtocol⟩
      else
        let (success, probeError) :=
          readLoop env.ipString ip (replyType ipv6) (expectedReply env.getpid ipv6 sequence)
            env.reads
        ⟨success, probeError, some ipProtocol⟩

/-- `probeICMP` of the registry variant of the prober: the same steps, with
`probe_ip_protocol` a gauge and no `probe_error`, every early return leaving
`success` false. -/
def Registry.probeICMP (env : ICMPEnv) (sequence : UInt16) (target : String)
    (module : Module) : Bool × Option Nat :=
  let result := Icmp.probeICMP env sequence target module
  (result.success, result.ipProtocol)

/-- A probe succeeds exactly when the target resolves, the socket opens, the
request goes out, the deadline is set, and some read before the deadline is
the reply from the target. -/
theorem probeICMP_success_iff (env : ICMPEnv) (sequence : UInt16) (target : String)
    (module : Module) :
    (probeICMP env sequence target module).success = true ↔
      ∃ ip, resolve env module.icmp target = some ip ∧ listen env ip.to4.isNone = true ∧
        env.writeTo (echoRequest env.getpid ip.to4.isNone sequence).marshal ip = true ∧
        env.setReadDeadline = true ∧
        ∃ event ∈ env.reads, isReply env.ipString ip (replyType ip.to4.isNone)
          (expectedReply env.getpid ip.to4.isNone sequence) event = true := by
  unfold probeICMP
  cases resolve env module.icmp target with
  | none => simp
  | some ip =>
      simp only [readLoop_eq]
      by_cases listening : listen env ip.to4.isNone <;>
        by_cases written : env.writeTo (echoRequest env.getpid ip.to4.isNone sequence).marshal ip <;>
        by_cases deadline : env.setReadDeadline <;>
        simp [listening, written, deadline]
      split <;> simp_all

/-- Unlike `probeHTTP`, every failure of `probeICMP` names its cause. -/
theorem probeICMP_probeError_eq_empty_iff (env : ICMPEnv) (sequence : UInt16)
    (target : String) (module : Module) :
    (probeICMP env sequence target module).probeError = "" ↔
      (probeICMP env sequence target module).success = true := by
  unfold probeICMP
  cases resolve env module.icmp target with
  | none => simp
  | some ip =>
      simp only [readLoop_eq]
      by_cases listening : listen env ip.to4.isNone <;>
        by_cases written : env.writeTo (echoRequest env.getpid ip.to4.isNone sequence).marshal ip <;>
        by_cases deadline : env.setReadDeadline <;>
        simp [listening, written, deadline]
      split <;> simp

theorem toNat_toUInt8 (n : Nat) : n.toUInt8.toNat = n % 256 := BitVec.toNat_ofNat n 8

theorem putUint16_inj {first second : Nat} (firstLt : first < 65536) (secondLt : second < 65536)
    (same : putUint16 first = putUint16 second) : first = second := by
  simp only [putUint16, List.cons.injEq, and_true] at same
  have high := congrArg UInt8.toNat same.1
  have low := congrArg UInt8.toNat same.2
  simp only [toNat_toUInt8] at high low
  omega

theorem expectedReply_injective (pid : Nat) (ipv6 : Bool) {first second : UInt16}
    (same : expectedReply pid ipv6 first = expectedReply pid ipv6 second) : first = second := by
  have sequenceBytes := congrArg (fun reply => (reply.drop 6).take 2) same
  have : putUint16 first.toNat = putUint16 second.toNat := by
    cases ipv6 <;>
      simpa [expectedReply, Message.marshal, echoRequest, replyType, ICMPType.isIPv6,
        Echo.marshal, putUint16] using sequenceBytes
  exact UInt16.toNat.inj (putUint16_inj first.toNat_lt_size second.toNat_lt_size this)

/-- All probes of one exporter send the same identifier, so the sequence
number alone tells their replies apart: in every interleaving, two probes
that took the counter's mutex fewer than `2^16` times apart wait for
different replies. -/
theorem concurrent_probes_expect_distinct_replies (pid : Nat) (ipv6 : Bool) {s : Sys}
    (reachable : s.Reachable) {first second firstThread secondThread : Nat}
    {firstValue secondValue : UInt16}
    (firstFound : s.acquired[first]? = some firstThread)
    (secondFound : s.acquired[second]? = some secondThread)
    (firstReturned : s.pc firstThread = .returned firstValue)
    (secondReturned : s.pc secondThread = .returned secondValue)
    (before : first < second) (within : second < first + 65536) :
    expectedReply pid ipv6 firstValue ≠ expectedReply pid ipv6 secondValue := by
  intro same
  have values := expectedReply_injective pid ipv6 same
  rw [reachable.inv.returned first firstThread firstValue firstFound firstReturned,
    reachable.inv.returned second secondThread secondValue secondFound secondReturned,
    callResult_eq_iff, Nat.ModEq] at values
  omega

theorem first_two_probes_expect_distinct_replies :
    (Sys.sequential 2).acquired[0]? = some 0 ∧ (Sys.sequential 2).acquired[1]? = some 1 ∧
      (Sys.sequential 2).pc 0 = .returned 1 ∧ (Sys.sequential 2).pc 1 = .returned 2 ∧
      expectedReply 0 false 1 ≠ expectedReply 0 false 2 :=
  have firstFound : (Sys.sequential 2).acquired[0]? = some 0 := rfl
  have secondFound : (Sys.sequential 2).acquired[1]? = some 1 := rfl
  have firstReturned : (Sys.sequential 2).pc 0 = .returned 1 := rfl
  have secondReturned : (Sys.sequential 2).pc 1 = .returned 2 := rfl
  ⟨firstFound, secondFound, firstReturned, secondReturned,
    concurrent_probes_expect_distinct_replies 0 false (Sys.sequential_reachable 2) firstFound
      secondFound firstReturned secondReturned (by decide) (by decide)⟩

end BlackboxExporter.Icmp
