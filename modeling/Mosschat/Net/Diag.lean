import Mosschat.Library.Json
import Mosschat.Library.TextCut
import Mosschat.Net.AddrText
import Mosschat.Net.Gate.FrameCodec

/-!
Owns the diagnostics record of `diag.rs`: the names of its enumerations, the texts its fields
are written as, the line a record is written as and the reader of such a line.

Does not own the text of a JSON value, which is `serde_json`'s, the text of a time, which is
`time`'s, the fingerprint of a key, nor the files the lines go to.
-/

namespace Mosschat.Net.Diag

open Mosschat.Library
open Mosschat.Library.Numeral
open Mosschat.Library.TextCut
open Mosschat.Net.Gate

/-! ## Errors -/

/-- A part of a message: the text of the format string, or what it shows of a value. -/
inductive Piece where
  | text (text : String)
  | debug (text : String)
  | debugValue (value : Json)
  | display (error : String)

/-- `DiagError`, as far as the reader of a line returns it. -/
inductive DiagError where
  | malformed (message : List Piece)

/-- `Option::ok_or`. -/
def okOr {α : Type} (found : Option α) (error : DiagError) : Except DiagError α :=
  match found with
  | some value => .ok value
  | none => .error error

/-- A name that is none of those there are. -/
def unknown (what name : String) : DiagError :=
  .malformed [.text ("unknown " ++ what ++ ": "), .debug name]

/-- The first of `all` that has the name. -/
def parseName {α : Type} (what : String) (all : List α) (asStr : α → String) (name : String) :
    Except DiagError α :=
  okOr (all.find? fun one => asStr one == name) (unknown what name)

/-! ## The enumerations -/

/-- `Step`. -/
inductive Step where
  | gateDial | gateRegister | reflectPrimary | reflectSecondary | introduce | relayOpen
  | peerHandshake | candidateExchange | startSignal | probeBurst | upgrade | live | pathLost
  | relayFallback | closed
deriving DecidableEq

namespace Step

/-- `Step::ALL`. -/
def all : List Step :=
  [.gateDial, .gateRegister, .reflectPrimary, .reflectSecondary, .introduce, .relayOpen,
    .peerHandshake, .candidateExchange, .startSignal, .probeBurst, .upgrade, .live, .pathLost,
    .relayFallback, .closed]

/-- `Step::as_str`. -/
def asStr : Step → String
  | .gateDial => "gate_dial"
  | .gateRegister => "gate_register"
  | .reflectPrimary => "reflect_primary"
  | .reflectSecondary => "reflect_secondary"
  | .introduce => "introduce"
  | .relayOpen => "relay_open"
  | .peerHandshake => "peer_handshake"
  | .candidateExchange => "candidate_exchange"
  | .startSignal => "start_signal"
  | .probeBurst => "probe_burst"
  | .upgrade => "upgrade"
  | .live => "live"
  | .pathLost => "path_lost"
  | .relayFallback => "relay_fallback"
  | .closed => "closed"

/-- `Step::parse_str`. -/
def parseStr : String → Except DiagError Step := parseName "step" all asStr

end Step

/-- `StepOutcome`. -/
inductive StepOutcome where
  | ok | fail
deriving DecidableEq

namespace StepOutcome

/-- `StepOutcome::as_str`. -/
def asStr : StepOutcome → String
  | .ok => "ok"
  | .fail => "fail"

/-- `StepOutcome::parse_str`. -/
def parseStr : String → Except DiagError StepOutcome
  | "ok" => .ok .ok
  | "fail" => .ok .fail
  | other => .error (unknown "outcome" other)

end StepOutcome

/-- `Reason`. -/
inductive Reason where
  | ok | gateUnreachable | gateRefusedNotMember | gateAtCapacity | gateRateLimited
  | relayStreamFallback | relayDatagramTooLarge | introduceTimeout | peerHandshakeFailed
  | peerKeyMismatch | noCandidates | probeTimeout | endpointDependentMapping | hairpinFailure
  | udpBlocked | pathIdleTimeout | localAddressChanged | peerGoodbye | capExceeded
  | punchDisabled | internal
deriving DecidableEq

namespace Reason

/-- `Reason::ALL`. -/
def all : List Reason :=
  [.ok, .gateUnreachable, .gateRefusedNotMember, .gateAtCapacity, .gateRateLimited,
    .relayStreamFallback, .relayDatagramTooLarge, .introduceTimeout, .peerHandshakeFailed,
    .peerKeyMismatch, .noCandidates, .probeTimeout, .endpointDependentMapping, .hairpinFailure,
    .udpBlocked, .pathIdleTimeout, .localAddressChanged, .peerGoodbye, .capExceeded,
    .punchDisabled, .internal]

/-- `Reason::as_str`. -/
def asStr : Reason → String
  | .ok => "ok"
  | .gateUnreachable => "gate_unreachable"
  | .gateRefusedNotMember => "gate_refused_not_member"
  | .gateAtCapacity => "gate_at_capacity"
  | .gateRateLimited => "gate_rate_limited"
  | .relayStreamFallback => "relay_stream_fallback"
  | .relayDatagramTooLarge => "relay_datagram_too_large"
  | .introduceTimeout => "introduce_timeout"
  | .peerHandshakeFailed => "peer_handshake_failed"
  | .peerKeyMismatch => "peer_key_mismatch"
  | .noCandidates => "no_candidates"
  | .probeTimeout => "probe_timeout"
  | .endpointDependentMapping => "endpoint_dependent_mapping"
  | .hairpinFailure => "hairpin_failure"
  | .udpBlocked => "udp_blocked"
  | .pathIdleTimeout => "path_idle_timeout"
  | .localAddressChanged => "local_address_changed"
  | .peerGoodbye => "peer_goodbye"
  | .capExceeded => "cap_exceeded"
  | .punchDisabled => "punch_disabled"
  | .internal => "internal"

/-- `Reason::parse_str`. -/
def parseStr : String → Except DiagError Reason := parseName "reason" all asStr

end Reason

/-- `Mapping`. -/
inductive Mapping where
  | endpointIndependent | endpointDependent | unknown
deriving DecidableEq

namespace Mapping

/-- `Mapping::as_str`. -/
def asStr : Mapping → String
  | .endpointIndependent => "endpoint_independent"
  | .endpointDependent => "endpoint_dependent"
  | .unknown => "unknown"

/-- `Mapping::parse_str`. -/
def parseStr : String → Except DiagError Mapping
  | "endpoint_independent" => .ok .endpointIndependent
  | "endpoint_dependent" => .ok .endpointDependent
  | "unknown" => .ok .unknown
  | other => .error (Diag.unknown "mapping" other)

end Mapping

/-- `PathChoice`. -/
inductive PathChoice where
  | relay (addr : Addr)
  | direct (addr : Addr)
deriving DecidableEq

namespace PathChoice

/-- `PathChoice::kind_str`. -/
def kindStr : PathChoice → String
  | .relay _ => "relay"
  | .direct _ => "direct"

/-- `PathChoice::addr`. -/
def addr : PathChoice → Addr
  | .relay addr => addr
  | .direct addr => addr

end PathChoice

/-- `VisitEventKind`. -/
inductive VisitEventKind where
  | registered | knock | visitOpen | upgraded | pathStale | pathDead | fellBack | recovered
  | goodbye | refused | gateLost
deriving DecidableEq

namespace VisitEventKind

/-- `VisitEventKind::ALL`. -/
def all : List VisitEventKind :=
  [.registered, .knock, .visitOpen, .upgraded, .pathStale, .pathDead, .fellBack, .recovered,
    .goodbye, .refused, .gateLost]

/-- `VisitEventKind::as_str`. -/
def asStr : VisitEventKind → String
  | .registered => "registered"
  | .knock => "knock"
  | .visitOpen => "visit_open"
  | .upgraded => "upgraded"
  | .pathStale => "path_stale"
  | .pathDead => "path_dead"
  | .fellBack => "fell_back"
  | .recovered => "recovered"
  | .goodbye => "goodbye"
  | .refused => "refused"
  | .gateLost => "gate_lost"

/-- `VisitEventKind::parse_str`. -/
def parseStr : String → Except DiagError VisitEventKind := parseName "visit event" all asStr

end VisitEventKind

/-- `RttSource`. -/
inductive RttSource where
  | notSampled | probe | quic | mixed
deriving DecidableEq

namespace RttSource

/-- `RttSource::as_str`. -/
def asStr : RttSource → String
  | .notSampled => "not_sampled"
  | .probe => "probe"
  | .quic => "quic"
  | .mixed => "mixed"

/-- `RttSource::parse_str`. -/
def parseStr : String → Except DiagError RttSource
  | "not_sampled" => .ok .notSampled
  | "probe" => .ok .probe
  | "quic" => .ok .quic
  | "mixed" => .ok .mixed
  | other => .error (unknown "rtt source" other)

end RttSource

/-! ## Hexadecimal texts -/

/-- `hex_encode`. -/
def hexEncode (bytes : List UInt8) : String :=
  String.ofList (bytes.flatMap fun byte =>
    [Nat.digitChar (byte.toNat / 16), Nat.digitChar (byte.toNat % 16)])

/-- The loop of `hex_decode` over the pairs of characters of `s`. -/
def hexPairs (s : String) : List Char → Except DiagError (List UInt8)
  | [] => .ok []
  | [_] => .error (.malformed [.text "bad hex pair in ", .debug s])
  | high :: low :: rest => do
    let bad := DiagError.malformed [.text "bad hex digit in ", .debug s]
    let high ← okOr (toDigit 16 high) bad
    let low ← okOr (toDigit 16 low) bad
    let others ← hexPairs s rest
    pure (UInt8.ofNat (high <<< 4 ||| low) :: others)

/-- `hex_decode`. -/
def hexDecode (s : String) : Except DiagError (List UInt8) :=
  if byteLength s.toList % 2 = 0 then hexPairs s s.toList
  else .error (.malformed [.text "odd length hex string: ", .debug s])

/-- `try_into` of an array of `count` bytes. -/
def toArray (count : Nat) (error : DiagError) (bytes : List UInt8) :
    Except DiagError (List.Vector UInt8 count) :=
  if width : bytes.length = count then .ok ⟨bytes, width⟩ else .error error

/-- `PeerFingerprint`. -/
structure PeerFingerprint where
  bytes : List.Vector UInt8 4
deriving DecidableEq

namespace PeerFingerprint

/-- `PeerFingerprint::as_hex`. -/
def asHex (peer : PeerFingerprint) : String := hexEncode peer.bytes.toList

/-- `PeerFingerprint::from_hex`. -/
def fromHex (s : String) : Except DiagError PeerFingerprint := do
  let bytes ← hexDecode s
  let array ← toArray 4 (.malformed [.text "peer fingerprint must be 4 bytes: ", .debug s]) bytes
  pure ⟨array⟩

end PeerFingerprint

/-! ## Times -/

/-- The crate `time`: RFC 3339 texts of nanoseconds since the Unix epoch. -/
structure TimeCrate where
  format : Int → Option String
  parse : String → Except String Int

namespace Rfc3339

/-- `EPOCH_FALLBACK`. -/
def epochFallback : String := "1970-01-01T00:00:00Z"

/-- `rfc3339::format`. -/
def format (time : TimeCrate) (epochMs : UInt64) : String :=
  (time.format (epochMs.toNat * 1000000)).getD epochFallback

/-- `rfc3339::parse`. -/
def parse (time : TimeCrate) (s : String) : Except DiagError UInt64 :=
  match time.parse s with
  | .error error =>
    .error (.malformed [.text "bad RFC 3339 timestamp ", .debug s, .text ": ", .display error])
  | .ok nanos =>
    if nanos < 0 then .error (.malformed [.text "timestamp before the Unix epoch: ", .debug s])
    else if nanos / 1000000 < 2 ^ 64 then .ok (UInt64.ofNat (nanos / 1000000).toNat)
    else .error (.malformed [.text "timestamp out of range: ", .debug s])

end Rfc3339

/-! ## Texts -/

/-- `MAX_FREE_TEXT_LEN`. -/
def maxFreeTextLen : Nat := 256

/-- What `cap_text` puts in place of what it cuts. -/
def cutMark : List Char := "...[truncated]".toList

/-- `cap_text`, of the characters of a text. -/
def capChars (s : List Char) : List Char :=
  if byteLength s ≤ maxFreeTextLen then s
  else (front (lastBoundary s maxFreeTextLen) s).getD [] ++ cutMark

/-- `cap_text`. -/
def capText (s : String) : String := String.ofList (capChars s.toList)

/-! ## Addresses -/

/-- The form of an address of a family that is neither 4 nor 6. -/
def dumpAddr (addr : Addr) : List Char :=
  "family=".toList ++ Nat.toDigits 10 addr.family.toNat ++ " bytes=".toList ++
    (hexEncode addr.bytes.toList).toList ++ " port=".toList ++ Nat.toDigits 10 addr.port.toNat

/-- `addr_to_json_string`. -/
def addrToJsonString (addr : Addr) : String :=
  match addr.toSocketAddr with
  | some socketAddr => String.ofList (showSocketAddr socketAddr)
  | none => String.ofList (dumpAddr addr)

/-- `str::strip_prefix`. -/
def stripPrefix (pattern text : List Char) : Option (List Char) :=
  if pattern.isPrefixOf text then some (text.drop pattern.length) else none

/-- `FromStr` of an unsigned integer below `bound`. -/
def parseUnsigned (bound : Nat) (text : List Char) : Option Nat :=
  let digits := match text with
    | '+' :: rest => rest
    | _ => text
  match readNumber 10 none true bound digits with
  | some (number, []) => some number
  | _ => none

/-- `addr_from_json_string`. -/
def addrFromJsonString (s : String) : Except DiagError Addr :=
  let text := s.toList
  match parseSocketAddr text with
  | some socketAddr => .ok (.fromSocketAddr socketAddr)
  | none => do
    let malformed := DiagError.malformed [.text "bad address: ", .debug s]
    let family ← okOr ((stripPrefix "family=".toList text).map (splitFirst [' '])) malformed
    let bytesHex ← okOr ((splitSecond " bytes=".toList text).map (splitFirst [' '])) malformed
    let port ← okOr (splitSecond " port=".toList text) malformed
    let bytes ← hexDecode (String.ofList bytesHex)
    let bytes ← toArray 16
      (.malformed [.text "address bytes must be 16 bytes: ", .debug s]) bytes
    let family ← okOr (parseUnsigned (2 ^ 8) family) malformed
    let port ← okOr (parseUnsigned (2 ^ 16) port) malformed
    pure ⟨UInt8.ofNat family, bytes, UInt16.ofNat port⟩

/-! ## The fields of a value -/

/-- `field`. -/
def field (value : Json) (key : String) : Except DiagError Json :=
  okOr (value.get key) (.malformed [.text "missing field ", .debug key])

/-- A field that is not of the kind it should be. -/
def notA (key what : String) : DiagError :=
  .malformed [.text "field ", .debug key, .text (" is not " ++ what)]

/-- `field` and a check of its kind. -/
def fieldAs {α : Type} (what : String) (read : Json → Option α) (value : Json) (key : String) :
    Except DiagError α := do
  let found ← field value key
  okOr (read found) (notA key what)

/-- `field_str`. -/
def fieldStr : Json → String → Except DiagError String := fieldAs "a string" Json.asStr

/-- `field_u64`. -/
def fieldU64 : Json → String → Except DiagError UInt64 := fieldAs "an unsigned integer" Json.asU64

/-- `optional_field_u64`. -/
def optionalFieldU64 (value : Json) (key : String) : Except DiagError UInt64 :=
  match value.get key with
  | none => .ok 0
  | some .null => .ok 0
  | some present => okOr present.asU64 (notA key "an unsigned integer")

/-- `u32::try_from`. -/
def toU32 (error : DiagError) (value : UInt64) : Except DiagError UInt32 :=
  if value.toNat < 2 ^ 32 then .ok value.toUInt32 else .error error

/-- `optional_field_u32`. -/
def optionalFieldU32 (value : Json) (key : String) : Except DiagError UInt32 := do
  let number ← optionalFieldU64 value key
  toU32 (.malformed [.text "field ", .debug key, .text " is out of range for u32"]) number

/-- `field_bool`. -/
def fieldBool : Json → String → Except DiagError Bool := fieldAs "a bool" Json.asBool

/-- `field_array`. -/
def fieldArray : Json → String → Except DiagError (List Json) := fieldAs "an array" Json.asArray

/-- `as_str`. -/
def asStr (value : Json) : Except DiagError String :=
  okOr value.asStr (.malformed [.text "expected a string, found ", .debugValue value])

/-! ## The record -/

/-- `StepRecord`. -/
structure StepRecord where
  step : Step
  atMs : UInt64
  outcome : StepOutcome
  detail : String
deriving DecidableEq

/-- `VisitEvent`. -/
structure VisitEvent where
  event : VisitEventKind
  atMs : UInt64
  detail : String
deriving DecidableEq

/-- `DiagRecord`. -/
structure DiagRecord where
  attempt : Bytes16
  session : UInt32
  gateMs : UInt64
  peer : PeerFingerprint
  startedAtMs : UInt64
  endedAtMs : UInt64
  steps : List StepRecord
  events : List VisitEvent
  failedStep : Option Step
  localObserved : Addr × Addr
  peerObserved : Addr
  mapping : Mapping
  gateCarriedTraffic : Bool
  gateBytes : UInt64
  relayQueued : UInt64
  relayShapedDelayP50Us : UInt64
  relayShapedDelayMaxUs : UInt64
  relayDroppedAtFull : UInt64
  path : PathChoice
  pathRttUs : UInt32
  rttMedianUs : UInt32
  rttP95Us : UInt32
  rttSamples : UInt32
  rttSource : RttSource
  reason : Reason
  version : String
  platform : String
deriving DecidableEq

/-! ### Writing -/

/-- The object a step is written as. -/
def StepRecord.toValue (step : StepRecord) : Json :=
  .ofFields [
    ("step", .string step.step.asStr),
    ("at_ms", .number step.atMs),
    ("outcome", .string step.outcome.asStr),
    ("detail", .string (capText step.detail))]

/-- The object a visit event is written as. -/
def VisitEvent.toValue (event : VisitEvent) : Json :=
  .ofFields [
    ("event", .string event.event.asStr),
    ("at_ms", .number event.atMs),
    ("detail", .string (capText event.detail))]

/-- A name, or null. -/
def nameOrNull : Option String → Json
  | some name => .string name
  | none => .null

namespace DiagRecord

/-- The fields of the object a record is written as. -/
def fields (time : TimeCrate) (record : DiagRecord) : List (String × Json) := [
  ("attempt", .string (hexEncode record.attempt.toList)),
  ("session", .number record.session.toUInt64),
  ("gate_ms", .number record.gateMs),
  ("peer", .string record.peer.asHex),
  ("started_at", .string (Rfc3339.format time record.startedAtMs)),
  ("ended_at", .string (Rfc3339.format time record.endedAtMs)),
  ("steps", .array (record.steps.map StepRecord.toValue)),
  ("failed_step", nameOrNull (record.failedStep.map Step.asStr)),
  ("events", .array (record.events.map VisitEvent.toValue)),
  ("local_observed", .array [
    .string (addrToJsonString record.localObserved.1),
    .string (addrToJsonString record.localObserved.2)]),
  ("peer_observed", .string (addrToJsonString record.peerObserved)),
  ("mapping", .string record.mapping.asStr),
  ("gate_carried_traffic", .bool record.gateCarriedTraffic),
  ("gate_bytes", .number record.gateBytes),
  ("relay_queued", .number record.relayQueued),
  ("relay_shaped_delay_p50_us", .number record.relayShapedDelayP50Us),
  ("relay_shaped_delay_max_us", .number record.relayShapedDelayMaxUs),
  ("relay_dropped_at_full", .number record.relayDroppedAtFull),
  ("path", .string record.path.kindStr),
  ("path_addr", .string (addrToJsonString record.path.addr)),
  ("path_rtt_us", .number record.pathRttUs.toUInt64),
  ("rtt_median_us", .number record.rttMedianUs.toUInt64),
  ("rtt_p95_us", .number record.rttP95Us.toUInt64),
  ("rtt_samples", .number record.rttSamples.toUInt64),
  ("rtt_source", .string record.rttSource.asStr),
  ("reason", .string record.reason.asStr),
  ("version", .string (capText record.version)),
  ("platform", .string (capText record.platform))]

/-- The object a record is written as. -/
def toValue (time : TimeCrate) (record : DiagRecord) : Json := .ofFields (record.fields time)

end DiagRecord

/-- The crate `serde_json`: the text of a value and the value of a text. -/
structure SerdeJson where
  toString : Json → Except String String
  fromStr : String → Except String Json

/-- `DiagRecord::to_json_line`. -/
def DiagRecord.toJsonLine (serde : SerdeJson) (time : TimeCrate) (record : DiagRecord) : String :=
  match serde.toString (record.toValue time) with
  | .ok line => line
  | .error _ => "{}"

/-! ### Reading -/

/-- One turn of the loop over the steps. -/
def StepRecord.fromValue (item : Json) : Except DiagError StepRecord := do
  let name ← fieldStr item "step"
  let step ← Step.parseStr name
  let atMs ← fieldU64 item "at_ms"
  let name ← fieldStr item "outcome"
  let outcome ← StepOutcome.parseStr name
  let detail ← fieldStr item "detail"
  pure { step, atMs, outcome, detail }

/-- One turn of the loop over the visit events. -/
def VisitEvent.fromValue (item : Json) : Except DiagError VisitEvent := do
  let name ← fieldStr item "event"
  let event ← VisitEventKind.parseStr name
  let atMs ← fieldU64 item "at_ms"
  let detail ← fieldStr item "detail"
  pure { event, atMs, detail }

/-- The visit events, none where there is no such field. -/
def readEvents (value : Json) : Except DiagError (List VisitEvent) :=
  match value.get "events" with
  | none => .ok []
  | some raw => do
    let items ← okOr raw.asArray (.malformed [.text "field \"events\" is not an array"])
    items.mapM VisitEvent.fromValue

/-- The step that failed, if any. -/
def readFailedStep (value : Json) : Except DiagError (Option Step) := do
  match ← field value "failed_step" with
  | .null => pure none
  | other =>
    let name ← asStr other
    let step ← Step.parseStr name
    pure (some step)

/-- The two reflections. -/
def readLocalObserved (value : Json) : Except DiagError (Addr × Addr) := do
  match ← fieldArray value "local_observed" with
  | [first, second] =>
    let first ← asStr first
    let first ← addrFromJsonString first
    let second ← asStr second
    let second ← addrFromJsonString second
    pure (first, second)
  | _ => .error (.malformed [.text "local_observed must have exactly two entries"])

/-- The path, of its kind and its address. -/
def readPath (value : Json) : Except DiagError PathChoice := do
  let pathKind ← fieldStr value "path"
  let text ← fieldStr value "path_addr"
  let pathAddr ← addrFromJsonString text
  match pathKind with
  | "relay" => pure (.relay pathAddr)
  | "direct" => pure (.direct pathAddr)
  | other => .error (unknown "path kind" other)

/-- What the round trip samples measure, nothing where there is no such field. -/
def readRttSource (value : Json) : Except DiagError RttSource :=
  match value.get "rtt_source" with
  | none => .ok .notSampled
  | some .null => .ok .notSampled
  | some present => do
    let name ← asStr present
    RttSource.parseStr name

namespace DiagRecord

/-- `DiagRecord::from_json_line`, of the value of the line. -/
def fromValue (time : TimeCrate) (value : Json) : Except DiagError DiagRecord := do
  let attemptHex ← fieldStr value "attempt"
  let attemptBytes ← hexDecode attemptHex
  let attempt ← toArray 16 (.malformed [.text "attempt must be 16 bytes"]) attemptBytes
  let number ← fieldU64 value "session"
  let session ← toU32 (.malformed [.text "session out of range"]) number
  let gateMs ← fieldU64 value "gate_ms"
  let text ← fieldStr value "peer"
  let peer ← PeerFingerprint.fromHex text
  let text ← fieldStr value "started_at"
  let startedAtMs ← Rfc3339.parse time text
  let text ← fieldStr value "ended_at"
  let endedAtMs ← Rfc3339.parse time text
  let items ← fieldArray value "steps"
  let steps ← items.mapM StepRecord.fromValue
  let events ← readEvents value
  let failedStep ← readFailedStep value
  let localObserved ← readLocalObserved value
  let text ← fieldStr value "peer_observed"
  let peerObserved ← addrFromJsonString text
  let name ← fieldStr value "mapping"
  let mapping ← Mapping.parseStr name
  let gateCarriedTraffic ← fieldBool value "gate_carried_traffic"
  let gateBytes ← fieldU64 value "gate_bytes"
  let relayQueued ← optionalFieldU64 value "relay_queued"
  let relayShapedDelayP50Us ← optionalFieldU64 value "relay_shaped_delay_p50_us"
  let relayShapedDelayMaxUs ← optionalFieldU64 value "relay_shaped_delay_max_us"
  let relayDroppedAtFull ← optionalFieldU64 value "relay_dropped_at_full"
  let path ← readPath value
  let number ← fieldU64 value "path_rtt_us"
  let pathRttUs ← toU32 (.malformed [.text "path_rtt_us out of range"]) number
  let rttMedianUs ← optionalFieldU32 value "rtt_median_us"
  let rttP95Us ← optionalFieldU32 value "rtt_p95_us"
  let rttSamples ← optionalFieldU32 value "rtt_samples"
  let rttSource ← readRttSource value
  let name ← fieldStr value "reason"
  let reason ← Reason.parseStr name
  let version ← fieldStr value "version"
  let platform ← fieldStr value "platform"
  pure
    { attempt, session, gateMs, peer, startedAtMs, endedAtMs, steps, events, failedStep,
      localObserved, peerObserved, mapping, gateCarriedTraffic, gateBytes, relayQueued,
      relayShapedDelayP50Us, relayShapedDelayMaxUs, relayDroppedAtFull, path, pathRttUs,
      rttMedianUs, rttP95Us, rttSamples, rttSource, reason, version, platform }

/-- `DiagRecord::from_json_line`. -/
def fromJsonLine (serde : SerdeJson) (time : TimeCrate) (line : String) :
    Except DiagError DiagRecord :=
  match serde.fromStr line with
  | .error error => .error (.malformed [.text "invalid JSON: ", .display error])
  | .ok value => fromValue time value

end DiagRecord

end Mosschat.Net.Diag
