import SevenMirror.Admission.MembershipState
import SevenMirror.HttpApi.Challenge
import SevenMirror.RateLimit.FixedWindow
import SevenMirror.WorkspaceBackup.ManifestForm

/-! The handlers of `internal/httpapi`: `register`, `prove` and `state` of `membership.go`, and
`ServeHTTP` of `credential_rotation.go`, with their limiters.  A request is given as the standard
library presents it: its method, what the address resolver makes of it, its media type, and its body
as the JSON decoder returns it. -/

namespace SevenMirror.HttpApi

open Lib MembershipCodec Admission RateLimit

structure Request (β : Type) where
  /-- The method is `POST`. -/
  post : Bool
  /-- What `Resolve` returns, or nothing for an invalid address. -/
  client : Option Bytes
  /-- The handler takes the content type for `application/json`. -/
  json : Bool
  /-- The decoded body, or nothing for a body that is too long, has unknown fields, or does not end
  after one value. -/
  body : Option β

/-- An answer of `http.Error`, with the headers set before it. -/
structure Failure where
  status : Nat
  message : String
  headers : List (String × String)
deriving DecidableEq, Repr

/-- An answer in JSON. -/
structure Answer (β : Type) where
  status : Nat
  body : β
deriving DecidableEq, Repr

abbrev Limiter := FixedWindow Bytes

structure AttemptLimits where
  attemptsPerMinute : Int64
  maxClientBuckets : Int64

/-- Those of `DefaultRateLimits`, for registrations and for rotations. -/
def defaultAttemptLimits : AttemptLimits := ⟨10, 4096⟩

/-- `newClientRateLimiter`, or nothing where it panics. -/
def newClientRateLimiter (limits : AttemptLimits) : Option Limiter :=
  newFixedWindow limits.attemptsPerMinute limits.maxClientBuckets 60000000000

/-! ### Before a body is read -/

/-- `allow` of `rate_limiter.go`, with nothing for an invalid address. -/
def allow (l : Limiter) (client : Option Bytes) (now : Time) : Limiter × Option Bool :=
  match client with
  | none => (l, none)
  | some host => ((l.allow host now).1, some (l.allow host now).2)

def methodNotAllowed : Failure := ⟨405, "method not allowed", [("Allow", "POST")]⟩

def invalidClientAddress : Failure := ⟨400, "invalid client address", []⟩

def unsupportedMediaType : Failure := ⟨415, "content type must be application/json", []⟩

def tooMany (message : String) : Failure := ⟨429, message, [("Retry-After", "60")]⟩

/-- What follows a limiter that was asked. -/
def admitted (answer : Option Bool) (message : String) : Except Failure Unit := do
  let allowed ← require answer invalidClientAddress
  reject (¬ allowed) (tooMany message)

section Begin

variable {β : Type}

/-- `beginJSON` with the limiter, which registrations ask. -/
def beginLimited (l : Limiter) (request : Request β) (now : Time) : Limiter × Except Failure Unit :=
  if ¬ request.post then (l, .error methodNotAllowed)
  else
    match allow l request.client now with
    | (l, answer) => (l, do
        admitted answer "too many registration attempts"
        reject (¬ request.json) unsupportedMediaType)

/-- `beginJSON` without it. -/
def beginJSON (request : Request β) : Except Failure Unit := do
  reject (¬ request.post) methodNotAllowed
  reject (¬ request.json) unsupportedMediaType

def decodeMembershipJSON (request : Request β) : Except Failure β :=
  require request.body ⟨400, "invalid membership request", []⟩

end Begin

/-- `decodeCanonicalBase64URL`, the array that its callers copy the bytes to. -/
def decodeCanonicalBase64URL (size : Nat) (value : Bytes) : Option (Block size) :=
  WorkspaceBackup.decodeExact size value

/-! ### Registration -/

structure RegistrationRequest where
  pairingCode : Bytes
  deviceType : Bytes
  deviceName : Bytes
  e2eePublicKey : Bytes

structure MembershipRegistrationResponse where
  workspaceID : Bytes
  deviceID : Bytes
  authToken : Bytes
  authorityPublicKey : Bytes
  challengeEnc : Bytes
  challengeCiphertext : Bytes
deriving DecidableEq, Repr

/-- `validateDeviceType` of the string. -/
def parseDeviceType (text : Bytes) : Option Admission.DeviceType :=
  if text = "android".toUTF8.toList then some .android
  else if text = "chrome".toUTF8.toList then some .chrome
  else none

/-- What a registration draws from the random source. -/
structure RegistrationRandom where
  deviceID : DeviceID
  authToken : Block 32
  challenge : ChallengeRandom

/-- A registration whose device is in the registry, before the key of its workspace is read. -/
structure Registered where
  device : RegisteredDevice
  challenge : IdentityChallenge

def invalidRegistration : Failure := ⟨400, "invalid registration request", []⟩

def registrationUnavailable : Failure := ⟨503, "registration unavailable", []⟩

def registrationFailure : RegistryError → Failure
  | .invalidRegistration => invalidRegistration
  | .invalidPairingCode => ⟨403, "registration denied", []⟩
  | _ => registrationUnavailable

section Handlers

variable (crypto : Crypto) (hpke : Hpke)

/-- The call of `RegisterPending`, whose factory creates the challenge. -/
def registrationInput (request : RegistrationRequest) (e2eePublicKey : Bytes) (now : Time)
    (random : RegistrationRandom) : Registration where
  pairingCode := request.pairingCode
  deviceType := parseDeviceType request.deviceType
  deviceName := request.deviceName
  e2eePublicKey := e2eePublicKey
  now := now
  createChallenge workspaceID deviceID :=
    ((createIdentityChallenge crypto hpke workspaceID.bytes deviceID.bytes e2eePublicKey now
      random.challenge).toOption).map fun created =>
        ⟨created.digest, created.secret.bytes, created.expiresAt⟩
  deviceID := random.deviceID
  authToken := random.authToken

/-- `register` up to the read of the key.  The factory has left its challenge in a variable. -/
def register (s : Registry) (request : RegistrationRequest) (now : Time)
    (random : RegistrationRandom) : Except Failure (Registry × Registered) := do
  let publicKey ← require (decodeBase64URL request.e2eePublicKey) invalidRegistration
  let (s, device) ← rethrow registrationFailure
    (registerPending crypto s (registrationInput crypto hpke request publicKey now random))
  let challenge ← rethrow (fun _ => registrationUnavailable)
    (createIdentityChallenge crypto hpke device.workspaceID.bytes device.deviceID.bytes publicKey now
      random.challenge)
  return (s, ⟨device, challenge⟩)

/-- The rest of `register`. -/
def registrationReply (s : Registry) (registered : Registered) :
    Except Failure (Answer MembershipRegistrationResponse) := do
  let authorityPublicKey ← require
    (workspaceAuthorityPublicKey s registered.device.workspaceID) registrationUnavailable
  return ⟨201,
    { workspaceID := encodeBase64URL registered.device.workspaceID.bytes
      deviceID := encodeBase64URL registered.device.deviceID.bytes
      authToken := encodeBase64URL registered.device.authToken.bytes
      authorityPublicKey := encodeBase64URL authorityPublicKey.bytes
      challengeEnc := encodeBase64URL registered.challenge.encapsulatedKey
      challengeCiphertext := encodeBase64URL registered.challenge.ciphertext }⟩

/-! ### Proofs -/

structure MembershipProofRequest where
  workspaceID : Bytes
  deviceID : Bytes
  authToken : Bytes
  proof : Bytes

def proofDenied : Failure := ⟨403, "membership proof denied", []⟩

/-- The body of the answer, `{"state": ...}`. -/
structure StateAnswer where
  state : String
deriving DecidableEq, Repr

def prove (s : Registry) (request : MembershipProofRequest) (now : Time) :
    Except Failure (Registry × Answer StateAnswer) := do
  let workspaceID ← require (decodeCanonicalBase64URL 16 request.workspaceID) proofDenied
  let deviceID ← require (decodeCanonicalBase64URL 16 request.deviceID) proofDenied
  let token ← require (decodeCanonicalBase64URL 32 request.authToken) proofDenied
  let proofBytes ← require (decodeBase64URL request.proof) proofDenied
  reject (encodeBase64URL proofBytes ≠ request.proof) proofDenied
  let proof ← rethrow (fun _ => proofDenied) (decodePendingIdentityProof proofBytes)
  reject (proof.workspaceId ≠ workspaceID.bytes ∨ proof.deviceId ≠ deviceID.bytes) proofDenied
  let s ← rethrow (fun _ => proofDenied) (completePendingIdentityProof crypto s
    ⟨workspaceID, deviceID, token.bytes, proof.challengeDigest, proof.challengeSecret, now⟩)
  return (s, ⟨200, ⟨"pending_approval"⟩⟩)

/-! ### Membership state -/

structure MembershipStateRequest where
  workspaceID : Bytes
  deviceID : Bytes
  authToken : Bytes
  afterRosterEpoch : Bytes

structure MembershipStateResponse where
  state : MembershipState
  authorityPublicKey : Bytes
  /-- Nothing if it is empty, and so left out. -/
  signedCertificate : Option Bytes
  authorityTransitions : List Bytes
  rosters : List Bytes
  latestRosterEpoch : Bytes
deriving DecidableEq, Repr

def stateDenied : Failure := ⟨403, "membership state denied", []⟩

/-- `strconv.FormatInt` in base 10. -/
def formatInt (n : Int) : Bytes := (toString n).toUTF8.toList

/-- `state`, with what `ReadMembershipState` reads. -/
def membershipState (read : MembershipRead → Except MembershipReadError MembershipStateView)
    (request : MembershipStateRequest) : Except Failure (Answer MembershipStateResponse) := do
  let workspaceID ← require (decodeCanonicalBase64URL 16 request.workspaceID) stateDenied
  let deviceID ← require (decodeCanonicalBase64URL 16 request.deviceID) stateDenied
  let token ← require (decodeCanonicalBase64URL 32 request.authToken) stateDenied
  let afterEpoch ← require (atoi request.afterRosterEpoch) stateDenied
  reject (afterEpoch < 0 ∨ formatInt afterEpoch ≠ request.afterRosterEpoch) stateDenied
  let view ← rethrow (fun _ => stateDenied)
    (read ⟨workspaceID, deviceID, token.bytes, Int64.ofInt afterEpoch⟩)
  return ⟨200,
    { state := view.state
      authorityPublicKey := encodeBase64URL view.authorityPublicKey.bytes
      signedCertificate :=
        if view.signedCertificate = [] then none else some (encodeBase64URL view.signedCertificate)
      authorityTransitions := view.authorityTransitions.map encodeBase64URL
      rosters := view.rosters.map encodeBase64URL
      latestRosterEpoch := formatInt view.latestRosterEpoch }⟩

/-! ### Credentials -/

structure CredentialRotationRequest where
  workspaceID : Bytes
  deviceID : Bytes
  currentAuthToken : Bytes
  rotationCode : Bytes
  pendingAuthToken : Bytes

def invalidRotationRequest : Failure := ⟨400, "invalid credential rotation request", []⟩

def rotationFailure : RegistryError → Failure
  | .invalidRotation => ⟨403, "credential rotation denied", []⟩
  | _ => ⟨503, "credential rotation unavailable", []⟩

/-- `ServeHTTP` after the limiter. -/
def rotate (s : Registry) (request : CredentialRotationRequest) (now : Time) :
    Except Failure (Registry × Answer StateAnswer) := do
  let workspaceID ← require (decodeCanonicalBase64URL 16 request.workspaceID) invalidRotationRequest
  let deviceID ← require (decodeCanonicalBase64URL 16 request.deviceID) invalidRotationRequest
  let currentToken ← require (decodeCanonicalBase64URL 32 request.currentAuthToken) invalidRotationRequest
  let pendingToken ← require (decodeCanonicalBase64URL 32 request.pendingAuthToken) invalidRotationRequest
  let (s, _) ← rethrow rotationFailure (rotateCredential crypto s
    ⟨workspaceID, deviceID, currentToken.bytes, request.rotationCode, pendingToken.bytes, now⟩)
  return (s, ⟨200, ⟨"rotated"⟩⟩)

/-- The media type is compared as it stands, and before the limiter. -/
def beginRotation {β : Type} (l : Limiter) (request : Request β) (now : Time) :
    Limiter × Except Failure Unit :=
  if ¬ request.post then (l, .error methodNotAllowed)
  else if ¬ request.json then (l, .error unsupportedMediaType)
  else
    match allow l request.client now with
    | (l, answer) => (l, admitted answer "too many credential rotation attempts")

/-! ### The server -/

structure Server where
  registry : Registry
  membership : Limiter
  rotation : Limiter

/-- A request; a registration is served in two statements, between which others are served. -/
inductive Served
  | register (request : Request RegistrationRequest) (random : RegistrationRandom)
  | registered (registered : Registered)
  | prove (request : Request MembershipProofRequest)
  | state (request : Request MembershipStateRequest)
  | rotate (request : Request CredentialRotationRequest)

inductive Outcome
  | failed (failure : Failure)
  | registered (registered : Registered)
  | registration (answer : Answer MembershipRegistrationResponse)
  | done (answer : Answer StateAnswer)
  | state (answer : Answer MembershipStateResponse)

/-- The registry after a handler, and what it answers. -/
def settle {α : Type} (server : Server) (outcome : α → Outcome)
    (result : Except Failure (Registry × α)) : Server × Outcome :=
  match result with
  | .error failure => (server, .failed failure)
  | .ok (registry, a) => ({ server with registry }, outcome a)

/-- An answer that changes nothing. -/
def answered {α : Type} (server : Server) (outcome : α → Outcome) (result : Except Failure α) :
    Server × Outcome :=
  match result with
  | .error failure => (server, .failed failure)
  | .ok a => (server, outcome a)

def serve (server : Server) (now : Time) : Served → Server × Outcome
  | .register request random =>
    match beginLimited server.membership request now with
    | (membership, begun) => settle { server with membership } .registered (do
        begun
        let body ← decodeMembershipJSON request
        register crypto hpke server.registry body now random)
  | .registered registered =>
    answered server .registration (registrationReply server.registry registered)
  | .prove request => settle server .done (do
      beginJSON request
      let body ← decodeMembershipJSON request
      prove crypto server.registry body now)
  | .state request => answered server .state (do
      beginJSON request
      let body ← decodeMembershipJSON request
      membershipState (fun input => (readMembershipState crypto input).eval
        (answerMembership crypto input server.registry)) body)
  | .rotate request =>
    match beginRotation server.rotation request now with
    | (rotation, begun) => settle { server with rotation } .done (do
        begun
        let body ← require request.body invalidRotationRequest
        rotate crypto server.registry body now)

/-- A request, or a call of the console or of a command. -/
inductive Event
  | request (now : Time) (served : Served)
  | call (call : Call)

/-- The server as a machine, one statement after the other. -/
def system : Machine Server Event (Option Outcome) where
  step server
    | .request now served => ((serve crypto hpke server now served).1,
        some (serve crypto hpke server now served).2)
    | .call call => ({ server with registry := ((store crypto).step server.registry call).1 }, none)

end Handlers

end SevenMirror.HttpApi
