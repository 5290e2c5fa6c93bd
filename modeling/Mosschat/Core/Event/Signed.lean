import Mosschat.Core.Event.BodyCodec

/-!
Owns `event/signed.rs`: an envelope, a signature and a body bound into one
event, its byte layout, and the checks made on received bytes in their order.

Does not own any rule that needs what a recording already holds.
-/

namespace Mosschat.Core

open Mosschat.Library.Cbor

def bodyLenMax : Nat := 130847
def eventTotalMax : Nat := 131072

/-- `b"mosschat-event-v1\x00"`. -/
def signingPrefix : Bytes :=
  [109, 111, 115, 115, 99, 104, 97, 116, 45, 101, 118, 101, 110, 116, 45, 118, 49, 0]

def signingInput (envelopeBytes : Bytes) : Bytes := signingPrefix ++ envelopeBytes

structure SignedEvent where
  envelopeBytes : Bytes
  envelope : Envelope
  sig : Bytes64
  bodyBytes : Bytes
  body : Body
  eventId : EventId
deriving DecidableEq

inductive SignedEventError where
  | tooShort
  | envelope (reason : DecodeError)
  | unsupportedVersion (v : UInt8)
  | bodyLenMismatch (declared : UInt32) (actual : Nat)
  | bodyLenOverCap (bodyLen : UInt32)
  | totalSizeOverCap (total : Nat)
  | bodyHashMismatch
  | body (reason : DecodeError)
  | invalidSignature (reason : CoreError)
deriving DecidableEq

/-- The field reads of `envelope_prefix_len`; unlike the envelope's own they
take byte strings of any length. -/
def skipEnvelope : Decoder Unit := do
  let len ← array
  if len = some 8 then
    let _ ← u8
    let _ ← bytes
    let _ ← bytes
    let _ ← u64
    let _ ← bytes
    let _ ← u64
    let _ ← bytes
    let _ ← u32
    pure ()
  else throw (.message "envelope must be a definite-length array of 8 elements")

/-- `envelope_prefix_len`: the decoder's position after the eight fields. -/
def envelopePrefixLen (input : Bytes) : Except DecodeError Nat :=
  match skipEnvelope input with
  | .error reason => .error reason
  | .ok ((), rest) => .ok (input.length - rest.length)

namespace SignedEvent

/-- `SignedEvent::sign`. A body longer than `u32::MAX` panics there. -/
def sign (crypto : Crypto) (envelope : Envelope) (body : Body) (signer : Bytes → Bytes64) :
    Option SignedEvent :=
  let bodyBytes := body.toCbor
  if bodyBytes.length < 2 ^ 32 then
    let envelope :=
      { envelope with
        bodyHash := crypto.blake3 bodyBytes
        bodyLen := UInt32.ofNat bodyBytes.length }
    let envelopeBytes := envelope.toCbor
    some
      { envelopeBytes, envelope
        sig := signer (signingInput envelopeBytes)
        bodyBytes, body
        eventId := .ofEnvelope crypto envelopeBytes }
  else none

/-- `SignedEvent::to_bytes`. -/
def toBytes (event : SignedEvent) : Bytes :=
  event.envelopeBytes ++ (event.sig.toList ++ event.bodyBytes)

/-- The checks of `SignedEvent::parse` past the envelope's caps: R-4, R-6, R-1,
and the body. -/
def parseRest (crypto : Crypto) (envelopeBytes : Bytes) (envelope : Envelope) (sig : Bytes64)
    (bodyBytes : Bytes) : Except SignedEventError SignedEvent :=
  if bodyBytes.length ≠ envelope.bodyLen.toNat then
    .error (.bodyLenMismatch envelope.bodyLen bodyBytes.length)
  else if crypto.blake3 bodyBytes ≠ envelope.bodyHash then .error .bodyHashMismatch
  else
    match verify crypto envelope.author (signingInput envelopeBytes) sig with
    | .error reason => .error (.invalidSignature reason)
    | .ok () =>
      match Body.fromCbor bodyBytes with
      | .error reason => .error (.body reason)
      | .ok body =>
        .ok
          { envelopeBytes, envelope, sig, bodyBytes, body
            eventId := .ofEnvelope crypto envelopeBytes }

/-- `SignedEvent::parse`. -/
def parse (crypto : Crypto) (input : Bytes) : Except SignedEventError SignedEvent :=
  match envelopePrefixLen input with
  | .error reason => .error (.envelope reason)
  | .ok envelopeLen =>
    match Envelope.fromCbor (input.take envelopeLen) with
    | .error reason => .error (.envelope reason)
    | .ok envelope =>
      if envelope.v ≠ 1 then .error (.unsupportedVersion envelope.v)
      else if bodyLenMax < envelope.bodyLen.toNat then
        .error (.bodyLenOverCap envelope.bodyLen)
      else if eventTotalMax < envelopeLen + 64 + envelope.bodyLen.toNat then
        .error (.totalSizeOverCap (envelopeLen + 64 + envelope.bodyLen.toNat))
      else
        let sig := (input.drop envelopeLen).take 64
        if width : sig.length = 64 then
          parseRest crypto (input.take envelopeLen) envelope ⟨sig, width⟩
            (input.drop (envelopeLen + 64))
        else .error .tooShort

/-! ## What a parsed event is -/

/-- What `parse` has checked about the event it returns. -/
structure Parsed (crypto : Crypto) (event : SignedEvent) : Prop where
  envelopeDecodes : Envelope.fromCbor event.envelopeBytes = .ok event.envelope
  version : event.envelope.v = 1
  bodyLen : event.bodyBytes.length = event.envelope.bodyLen.toNat
  bodyHash : crypto.blake3 event.bodyBytes = event.envelope.bodyHash
  verifies :
    verify crypto event.envelope.author (signingInput event.envelopeBytes) event.sig = .ok ()
  bodyDecodes : Body.fromCbor event.bodyBytes = .ok event.body
  identity : event.eventId = .ofEnvelope crypto event.envelopeBytes

theorem parseRest_ok {crypto : Crypto} {envelopeBytes : Bytes} {envelope : Envelope}
    {sig : Bytes64} {bodyBytes : Bytes} {event : SignedEvent}
    (decodes : Envelope.fromCbor envelopeBytes = .ok envelope) (version : envelope.v = 1)
    (parsed : parseRest crypto envelopeBytes envelope sig bodyBytes = .ok event) :
    Parsed crypto event ∧ event.toBytes = envelopeBytes ++ (sig.toList ++ bodyBytes) ∧
      event.envelope = envelope := by
  unfold parseRest at parsed
  split_ifs at parsed with length hash
  split at parsed
  · cases parsed
  · next verified =>
    split at parsed
    · cases parsed
    · next body decoded =>
      cases parsed
      refine ⟨?_, rfl, rfl⟩
      exact ⟨decodes, version, not_not.mp length, not_not.mp hash, verified, decoded, rfl⟩

/-- Parsing keeps the received bytes whole. -/
theorem parse_ok {crypto : Crypto} {input : Bytes} {event : SignedEvent}
    (parsed : parse crypto input = .ok event) :
    Parsed crypto event ∧ event.toBytes = input ∧ event.envelope.bodyLen.toNat ≤ bodyLenMax := by
  unfold parse at parsed
  split at parsed
  · cases parsed
  · next envelopeLen _ =>
    split at parsed
    · cases parsed
    · next envelope decodes =>
      dsimp only at parsed
      split_ifs at parsed with version bodyCap totalCap width
      obtain ⟨checked, bytesEq, same⟩ := parseRest_ok decodes (not_not.mp version) parsed
      refine ⟨checked, bytesEq.trans ?_, by rw [same]; exact Nat.not_lt.mp bodyCap⟩
      change input.take envelopeLen ++ ((input.drop envelopeLen).take 64 ++ _) = input
      rw [← List.drop_drop, List.take_append_drop, List.take_append_drop]

theorem toBytes_of_parse {crypto : Crypto} {input : Bytes} {event : SignedEvent}
    (parsed : parse crypto input = .ok event) : event.toBytes = input :=
  (parse_ok parsed).2.1

theorem parsed_of_parse {crypto : Crypto} {input : Bytes} {event : SignedEvent}
    (parsed : parse crypto input = .ok event) : Parsed crypto event :=
  (parse_ok parsed).1

/-- The envelope's bytes are the encoding of the envelope. -/
theorem Parsed.toCbor_envelope {crypto : Crypto} {event : SignedEvent}
    (parsed : Parsed crypto event) : event.envelope.toCbor = event.envelopeBytes :=
  Envelope.toCbor_of_fromCbor parsed.envelopeDecodes

/-- R-26, of a parsed join. -/
theorem Parsed.person_mem_devices {crypto : Crypto} {event : SignedEvent} {join : Join}
    (parsed : Parsed crypto event) (body : event.body = .join join) :
    join.person ∈ join.devices := by
  have decodes := parsed.bodyDecodes
  rw [body] at decodes
  exact (join_of_fromCbor decodes).2

/-! ## Signing and parsing -/

/-- The field reads find where an envelope ends, whatever follows it. -/
theorem reads_skipEnvelope (envelope : Envelope) :
    Reads skipEnvelope envelope.toCbor () := by
  have narrow : ∀ value : Bytes32, value.toList.length < 2 ^ 64 := by
    intro value
    have width : value.toList.length = 32 := value.toList_length
    omega
  refine (reads_lengthHead (by decide) (by decide)).bind ?_
  rw [if_pos rfl]
  refine (reads_u8 envelope.v).bind ?_
  refine (reads_bytes (narrow envelope.visit)).bind ?_
  refine (reads_bytes (narrow envelope.author)).bind ?_
  refine (reads_u64 envelope.seq).bind ?_
  refine (reads_bytes (narrow envelope.prev)).bind ?_
  refine (reads_u64 envelope.tsMs).bind ?_
  refine (reads_bytes (narrow envelope.bodyHash)).bind ?_
  exact (reads_u32 envelope.bodyLen).bind_pure (Reads.pure ())

theorem envelopePrefixLen_append (envelope : Envelope) (rest : Bytes) :
    envelopePrefixLen (envelope.toCbor ++ rest) = .ok envelope.toCbor.length := by
  rw [envelopePrefixLen, reads_skipEnvelope envelope rest]
  dsimp only
  rw [List.length_append, Nat.add_sub_cancel]

theorem envelopePrefixLen_le {input : Bytes} {envelopeLen : Nat}
    (found : envelopePrefixLen input = .ok envelopeLen) : envelopeLen ≤ input.length := by
  unfold envelopePrefixLen at found
  split at found
  · cases found
  · cases found
    omega

/-- A version 1 envelope, a signature and a capped body fit in the event cap: 161,
64 and 130_847 bytes are 131_072. -/
theorem total_le {envelope : Envelope} (version : envelope.v = 1)
    (capped : envelope.bodyLen.toNat ≤ bodyLenMax) :
    envelope.toCbor.length + 64 + envelope.bodyLen.toNat ≤ eventTotalMax := by
  have small : envelope.v ≤ 23 := by
    rw [version]
    decide
  have short := Envelope.toCbor_length_le small
  unfold bodyLenMax at capped
  unfold eventTotalMax
  omega

/-- An event that satisfies every check is parsed to itself. -/
theorem parse_toBytes {crypto : Crypto} {event : SignedEvent} (parsed : Parsed crypto event)
    (capped : event.envelope.bodyLen.toNat ≤ bodyLenMax) :
    parse crypto event.toBytes = .ok event := by
  obtain ⟨envelopeBytes, envelope, sig, bodyBytes, body, eventId⟩ := event
  have encoded : envelope.toCbor = envelopeBytes := parsed.toCbor_envelope
  have identity : eventId = .ofEnvelope crypto envelopeBytes := parsed.identity
  subst encoded identity
  have total := total_le parsed.version capped
  have width : sig.toList.length = 64 := sig.toList_length
  have signature : ((envelope.toCbor ++ (sig.toList ++ bodyBytes)).drop
      envelope.toCbor.length).take 64 = sig.toList := by
    rw [List.drop_left, List.take_left' width]
  have remaining : (envelope.toCbor ++ (sig.toList ++ bodyBytes)).drop
      (envelope.toCbor.length + 64) = bodyBytes := by
    rw [← List.drop_drop, List.drop_left, List.drop_left' width]
  have rest : parseRest crypto envelope.toCbor envelope sig bodyBytes =
      .ok ⟨envelope.toCbor, envelope, sig, bodyBytes, body, .ofEnvelope crypto envelope.toCbor⟩ := by
    unfold parseRest
    rw [if_neg (not_not.mpr parsed.bodyLen), if_neg (not_not.mpr parsed.bodyHash),
      parsed.verifies]
    dsimp only
    rw [parsed.bodyDecodes]
  unfold parse toBytes
  rw [envelopePrefixLen_append]
  dsimp only
  rw [List.take_left, Envelope.fromCbor_toCbor]
  dsimp only
  rw [if_neg (not_not.mpr parsed.version), if_neg (Nat.not_lt.mpr capped),
    if_neg (Nat.not_lt.mpr total)]
  simp only [signature, remaining, width, reduceDIte]
  exact rest

/-- A body that its own encoding decodes to: one of a known type that meets its caps
and rules, or an unknown one whose bytes are read as themselves. -/
def Body.Carried (body : Body) : Prop :=
  body.Admissible ∨ ¬body.Known ∧ Body.fromCbor body.toCbor = .ok body

theorem fromCbor_of_carried {body : Body} (carried : Body.Carried body) :
    Body.fromCbor body.toCbor = .ok body := by
  rcases carried with admissible | ⟨_, decodes⟩
  · exact Body.fromCbor_toCbor admissible
  · exact decodes

/-- `signer` holds the key of `author`: its signatures verify under that key. -/
def SignsFor (crypto : Crypto) (author : Bytes32) (signer : Bytes → Bytes64) : Prop :=
  ∀ msg, verify crypto author msg (signer msg) = .ok ()

/-- What is signed passes every check of `parse`. -/
theorem parsed_of_sign {crypto : Crypto} {envelope : Envelope} {body : Body}
    {signer : Bytes → Bytes64} (version : envelope.v = 1) (carried : Body.Carried body)
    (capped : body.toCbor.length ≤ bodyLenMax)
    (signs : SignsFor crypto envelope.author signer) :
    ∃ event, sign crypto envelope body signer = some event ∧ Parsed crypto event ∧
      event.envelope.bodyLen.toNat ≤ bodyLenMax := by
  have fits : body.toCbor.length < 2 ^ 32 := by
    unfold bodyLenMax at capped
    omega
  have counted : (UInt32.ofNat body.toCbor.length).toNat = body.toCbor.length := by
    rw [UInt32.toNat_ofNat']
    exact Nat.mod_eq_of_lt fits
  refine ⟨_, if_pos fits, ?_, ?_⟩
  · exact
      { envelopeDecodes := Envelope.fromCbor_toCbor _
        version
        bodyLen := counted.symm
        bodyHash := rfl
        verifies := signs _
        bodyDecodes := fromCbor_of_carried carried
        identity := rfl }
  · show (UInt32.ofNat body.toCbor.length).toNat ≤ bodyLenMax
    rw [counted]
    exact capped

theorem parseRest_ne_totalSizeOverCap {crypto : Crypto} {envelopeBytes : Bytes}
    {envelope : Envelope} {sig : Bytes64} {bodyBytes : Bytes} {total : Nat} :
    parseRest crypto envelopeBytes envelope sig bodyBytes ≠ .error (.totalSizeOverCap total) := by
  intro refused
  unfold parseRest at refused
  split_ifs at refused
  · cases refused
  · cases refused
  · split at refused
    · cases refused
    · split at refused <;> cases refused

/-- The total is checked after the body's cap, which already bounds it. -/
theorem parse_ne_totalSizeOverCap (crypto : Crypto) (input : Bytes) (total : Nat) :
    parse crypto input ≠ .error (.totalSizeOverCap total) := by
  intro refused
  unfold parse at refused
  split at refused
  · cases refused
  · next envelopeLen found =>
    split at refused
    · cases refused
    · next envelope decodes =>
      dsimp only at refused
      split_ifs at refused with version bodyCap totalCap width
      · cases refused
      · cases refused
      · have length : envelope.toCbor.length = envelopeLen := by
          rw [Envelope.toCbor_of_fromCbor decodes, List.length_take]
          exact Nat.min_eq_left (envelopePrefixLen_le found)
        have fits := total_le (not_not.mp version) (Nat.not_lt.mp bodyCap)
        rw [length] at fits
        omega
      · exact parseRest_ne_totalSizeOverCap refused
      · cases refused

/-! ## Recorded events -/

/-- An event put together from its parts and the recorded digest of its envelope. -/
def assembled (envelope : Envelope) (sig : Bytes64) (body : Body) (id : Bytes32) :
    SignedEvent where
  envelopeBytes := envelope.toCbor
  envelope := envelope
  sig := sig
  bodyBytes := body.toCbor
  body := body
  eventId := .fromBytes id

end SignedEvent

/-- 32 bytes written as one number. -/
def bytes32 (value : Nat) : Bytes32 := ⟨beBytes 32 value, beBytes_length 32 value⟩

/-- A signature written as its two halves. -/
def bytes64 (first second : Nat) : Bytes64 :=
  ⟨beBytes 32 first ++ beBytes 32 second, by simp⟩

/-- The primitives as recorded for the given events: the digests of their
envelopes and bodies, and their signatures. Nothing else verifies. -/
def Crypto.recordedFor (events : List SignedEvent) : Crypto where
  blake3 input :=
    match events.find? fun event => event.bodyBytes = input with
    | some event => event.envelope.bodyHash
    | none =>
      match events.find? fun event => event.envelopeBytes = input with
      | some event => event.eventId.asBytes
      | none => zero32
  verifyingKey key := events.any fun event => event.envelope.author = key
  verifyStrict key msg sig := events.any fun event =>
    event.envelope.author = key ∧ signingInput event.envelopeBytes = msg ∧ event.sig = sig

/-! ## The binding -/

namespace SignedEvent

/-- What is signed with the author's key is parsed back to itself; what is parsed is
bound to the received bytes, its id to their envelope prefix and its envelope to what
follows the signature; and no event is refused for its total size. -/
theorem signed_binding (crypto : Crypto) :
    (∀ (envelope : Envelope) (body : Body) (signer : Bytes → Bytes64), envelope.v = 1 →
      Body.Carried body → body.toCbor.length ≤ bodyLenMax →
      SignsFor crypto envelope.author signer →
      ∃ event, sign crypto envelope body signer = some event ∧
        parse crypto event.toBytes = .ok event) ∧
    (∀ (input : Bytes) (event : SignedEvent), parse crypto input = .ok event →
      event.toBytes = input ∧
        input.take event.envelopeBytes.length = event.envelope.toCbor ∧
        event.eventId = .ofEnvelope crypto (input.take event.envelopeBytes.length) ∧
        (input.drop (event.envelopeBytes.length + 64)).length = event.envelope.bodyLen.toNat ∧
        crypto.blake3 (input.drop (event.envelopeBytes.length + 64)) = event.envelope.bodyHash ∧
        input.length ≤ eventTotalMax) ∧
    ∀ (input : Bytes) (total : Nat), parse crypto input ≠ .error (.totalSizeOverCap total) := by
  refine ⟨?_, ?_, parse_ne_totalSizeOverCap crypto⟩
  · intro envelope body signer version carried capped signs
    obtain ⟨event, signed, parsed, bodyLen⟩ := parsed_of_sign version carried capped signs
    exact ⟨event, signed, parse_toBytes parsed bodyLen⟩
  · intro input event accepted
    obtain ⟨parsed, rfl, capped⟩ := parse_ok accepted
    have width : event.sig.toList.length = 64 := event.sig.toList_length
    have front : event.toBytes.take event.envelopeBytes.length = event.envelopeBytes :=
      List.take_left
    have back : event.toBytes.drop (event.envelopeBytes.length + 64) = event.bodyBytes := by
      rw [toBytes, ← List.drop_drop, List.drop_left, List.drop_left' width]
    rw [front, back]
    refine ⟨rfl, parsed.toCbor_envelope.symm, parsed.identity, parsed.bodyLen, parsed.bodyHash, ?_⟩
    have total := total_le parsed.version capped
    rw [parsed.toCbor_envelope] at total
    have bodyLen := parsed.bodyLen
    rw [toBytes, List.length_append, List.length_append]
    omega

/-- The author of the recorded greeting. -/
def greetingAuthor : Bytes32 :=
  bytes32 0xea4a6c63e29c520abef5507b132ec5f9954776aebebe7b92421eea691446d22c

/-- A greeting recorded with its digests and its signature. -/
def recordedGreeting : SignedEvent :=
  .assembled
    { v := 1
      visit := bytes32 0x1111111111111111111111111111111111111111111111111111111111111111
      author := greetingAuthor
      seq := 0
      prev := zero32
      tsMs := 5
      bodyHash := bytes32
        0x94404d0c064943245579a8b03696f9acedd6c08ad817ea84e4310ce16ccc52e0
      bodyLen := 7 }
    (bytes64
      0xffa2316400c3a9e0b6932d2ab4e484cce8dab6d58047dbce1f70405154a0805f
      0xe5624b8fb6d6a011920c7aed216d49f3244f2ae33b8065bdb3cb0fc5b4d1590b)
    Body.greeting
    (bytes32
      0x9abf70c76f825bc80cef0ddb6c37f64d57574e81ee6a6456c1d044d85356656b)

/-- The author's signatures, as recorded for the greeting. -/
def greetingSigner (msg : Bytes) : Bytes64 :=
  if msg = signingInput recordedGreeting.envelopeBytes then recordedGreeting.sig else bytes64 0 0

/-- The primitives as recorded for the greeting, with a key that signs as its author. -/
def greetingCrypto : Crypto where
  blake3 := (Crypto.recordedFor [recordedGreeting]).blake3
  verifyingKey := (Crypto.recordedFor [recordedGreeting]).verifyingKey
  verifyStrict key msg sig := key = greetingAuthor ∧ sig = greetingSigner msg

theorem greetingSigner_signs : SignsFor greetingCrypto greetingAuthor greetingSigner := by
  intro msg
  have held : greetingCrypto.verifyingKey greetingAuthor = true := by
    show ([recordedGreeting].any fun event => event.envelope.author = greetingAuthor) = true
    simp [recordedGreeting, assembled]
  have verifies : greetingCrypto.verifyStrict greetingAuthor msg (greetingSigner msg) = true :=
    decide_eq_true ⟨rfl, rfl⟩
  rw [verify, if_pos held, if_pos verifies]

theorem signed_binding_greeting :
    ∃ event, sign greetingCrypto recordedGreeting.envelope Body.greeting greetingSigner = some event ∧
      parse greetingCrypto event.toBytes = .ok event ∧ event.toBytes.length ≤ eventTotalMax := by
  have binding := signed_binding greetingCrypto
  obtain ⟨event, signed, parsed⟩ := binding.1 recordedGreeting.envelope Body.greeting greetingSigner
    rfl (Or.inl Body.greeting_admissible) (by decide +kernel) greetingSigner_signs
  have bound := binding.2.1 event.toBytes event parsed
  exact ⟨event, signed, parsed, bound.2.2.2.2.2⟩

end SignedEvent

end Mosschat.Core
