import SevenMirror.HttpApi.Requests

/-! A device that holds a pairing code and its private key enrols.  It registers, opens the challenge
of the reply, and proves its identity; between its requests the server serves any others, and the
console makes any calls, as long as nobody revokes the device or proves it first. -/

namespace SevenMirror.HttpApi

open Lib MembershipCodec Admission RateLimit

section Programs

variable (crypto : Crypto) (hpke : Hpke)

/-- The request of the device after the reply to its registration. -/
def proofRequest (privateKey identityPublicKey : Bytes) (reply : MembershipRegistrationResponse) :
    Option MembershipProofRequest := do
  let workspaceID ← decodeBase64URL reply.workspaceID
  let deviceID ← decodeBase64URL reply.deviceID
  let encapsulatedKey ← decodeBase64URL reply.challengeEnc
  let ciphertext ← decodeBase64URL reply.challengeCiphertext
  let answer ← answerChallenge crypto hpke privateKey identityPublicKey workspaceID deviceID
    encapsulatedKey ciphertext
  return ⟨reply.workspaceID, reply.deviceID, reply.authToken, encodeBase64URL answer⟩

end Programs

/-- The device holds the code and the key pair, asks for what the code is for, and the values that the
server draws are new. -/
structure Invited (crypto : Crypto) (hpke : Hpke) (s : Registry) (request : RegistrationRequest)
    (privateKey publicKey : Bytes) (now : Time) (random : RegistrationRandom) (code : PairingCode)
    (secret : Block 32) : Prop where
  listed : code ∈ s.pairingCodes.rows
  presented : ∃ text : Block 24, request.pairingCode = encodeBase64URL text.bytes ∧
    code.codeHash = crypto.sha256 text.bytes
  usable : code.consumedAtMs = none ∧ unixMillis now < code.expiresAtMs
  deviceType : parseDeviceType request.deviceType = some code.deviceType
  deviceName : validateDeviceName request.deviceName = .ok ()
  boundName : ∀ name, code.boundName = some name → request.deviceName = name
  identity : request.e2eePublicKey = encodeBase64URL publicKey ∧ publicKey.length = 65 ∧
    publicKey.head? = some 0x04 ∧ crypto.onCurve publicKey = true
  opens : hpke.Opens privateKey publicKey random.challenge.sender
  drawn : random.challenge.secret = some secret
  challengeable : Challengeable crypto code.workspaceID.bytes random.deviceID.bytes publicKey now secret
  authToken : s.tokenTaken (crypto.sha256 random.authToken.bytes) = false
  deviceID : s.device code.workspaceID random.deviceID = none

/-- What the store keeps of a challenge. -/
def IdentityChallenge.pending (challenge : IdentityChallenge) : PendingChallenge :=
  ⟨challenge.digest, challenge.secret.bytes, challenge.expiresAt⟩

section Steps

variable {crypto : Crypto} {hpke : Hpke} {s s' : Registry} {request : RegistrationRequest}
  {privateKey publicKey : Bytes} {now : Time} {random : RegistrationRandom} {code : PairingCode}
  {secret : Block 32} {input : Registration} {challenge : PendingChallenge} {id : WorkspaceID}

/-- The device registers, and its row holds the challenge that was sealed to it. -/
theorem Invited.register (hs : Reachable crypto s)
    (h : Invited crypto hpke s request privateKey publicKey now random code secret) :
    ∃ s₁ challenge answer d,
      register crypto hpke s request now random =
        .ok (s₁, ⟨⟨code.workspaceID, random.deviceID, random.authToken⟩, challenge⟩) ∧
      s₁.device code.workspaceID random.deviceID = some d ∧
      d.Challenged crypto (registrationInput crypto hpke request publicKey now random)
        challenge.pending ∧
      challenge.pending.Valid now ∧
      challenge.expiresAt = ⟨now.nanos + identityChallengeLifetime⟩ ∧
      answerChallenge crypto hpke privateKey publicKey code.workspaceID.bytes random.deviceID.bytes
        challenge.encapsulatedKey challenge.ciphertext = some answer ∧
      decodePendingIdentityProof answer = .ok (answerOf crypto code.workspaceID.bytes
        random.deviceID.bytes publicKey challenge.digest challenge.secret) := by
  obtain ⟨text, htext, hhash⟩ := h.presented
  obtain ⟨hkey, hlength, hhead, hcurve⟩ := h.identity
  obtain ⟨w, hw⟩ := hs.pairingCode_workspace h.listed
  obtain ⟨challenge, answer, hcreate, hdigest, hnonzero, rfl, hexpires, hanswer, hdecode⟩ :=
    h.challengeable.answered h.opens
  have hcreated : createIdentityChallenge crypto hpke code.workspaceID.bytes random.deviceID.bytes
      publicKey now random.challenge = .ok challenge := by
    have hrandom : random.challenge = ⟨some challenge.secret, random.challenge.sender⟩ := by
      rw [← h.drawn]
    rw [hrandom]
    exact hcreate
  have hvalid : challenge.pending.Valid now := by
    refine ⟨⟨hdigest, hnonzero⟩, ⟨challenge.secret.size, h.challengeable.fresh⟩, ?_, ?_⟩ <;>
      simp only [IdentityChallenge.pending, hexpires, Time.after, identityChallengeLifetime,
        decide_eq_true_eq] <;> omega
  have hfactory : (registrationInput crypto hpke request publicKey now random).createChallenge
      code.workspaceID random.deviceID = some challenge.pending := by
    simp only [registrationInput, hcreated, Except.toOption, Option.map_some, IdentityChallenge.pending]
  have hfresh : ∀ x ∈ w.devices.rows, x.id ≠ random.deviceID := by
    intro x hx hid
    have hrow : s.device code.workspaceID random.deviceID = some x :=
      Registry.device_eq_some.mpr ⟨w, hw, Table.find_eq_some.mpr ⟨hx, hid⟩⟩
    rw [h.deviceID] at hrow
    cases hrow
  have hsecret : decodeBase64URL request.pairingCode = some text.bytes := by
    rw [htext, decodeBase64URL_encodeBase64URL]
  obtain ⟨s₁, registered, -, -, hok, -⟩ := registerPending_succeeds
    (registrationInput crypto hpke request publicKey now random) code text challenge.pending h.listed
    hhash hsecret h.deviceType h.boundName h.usable h.deviceName ⟨hlength, hhead, hcurve⟩ hfactory
    hvalid hw h.authToken hfresh
  obtain ⟨j, v, devices, hinput, htakes, hwrites, rfl⟩ := registerPending_takes hok
  -- the code is the one that was presented, and the challenge the one that its factory made
  obtain rfl : j.code = code := by
    have hpresented := htakes.decodes
    rw [hinput] at hpresented
    refine Table.eq_of_key htakes.code h.listed ?_
    rw [htakes.hash, hhash, Option.some.inj (hpresented.symm.trans hsecret)]
  have hchallenge : j.challenge = challenge.pending := by
    have hmade := htakes.challenge
    rw [hinput] at hmade
    exact Option.some.inj (hmade.symm.trans hfactory)
  refine ⟨s₁, challenge, answer, j.row crypto, ?_, ?_, ?_, hvalid, hexpires, hanswer, hdecode⟩
  · simp only [HttpApi.register, bind_eq_ok, require_eq_ok, rethrow_eq_ok, pure_eq_ok, Prod.mk.injEq]
    refine ⟨publicKey, ?_, _, hok, challenge, hcreated, rfl, rfl⟩
    rw [hkey, decodeBase64URL_encodeBase64URL]
  · have hdevice := hwrites.device
    rw [hinput] at hdevice
    exact hdevice
  · refine ⟨?_, ?_, rfl, rfl, ?_, ?_, ?_⟩ <;> simp only [Joining.row, hinput, hchallenge]
    simp only [Option.map_some, htakes.digest, hchallenge]

/-- A row that waits for its proof has the token and the challenge that it had. -/
theorem Challenged.moves {d d' : Device} {action : Action}
    (h : d.Challenged crypto input challenge) (hmoves : d.Moves action d')
    (hwaits : d'.membershipState = .pendingProof) : d'.Challenged crypto input challenge := by
  cases hmoves with
  | other => exact h
  | prove | approve | revokePending | revoke => cases hwaits
  | rotateCredential hash happroved =>
    rw [h.state] at happroved
    cases happroved
  | rename name id encoded hmember =>
    rw [Device.Member, h.state] at hmember
    cases hmember.1
  | reissue d' hsame =>
    exact ⟨(congrArg (·.id) hsame).trans h.id, (congrArg (·.authTokenHash) hsame).trans h.token, hwaits,
      (congrArg (·.revokedAtMs) hsame).trans h.unrevoked,
      (congrArg (·.proofExpiresAtMs) hsame).trans h.expires,
      (congrArg (·.proofChallengeDigest.map Block.bytes) hsame).trans h.digest,
      (congrArg (·.proofSecretHash) hsame).trans h.secret⟩

/-- The device is in the registry, and waits for the answer to its challenge. -/
def Waiting (crypto : Crypto) (id : WorkspaceID) (input : Registration) (challenge : PendingChallenge)
    (s : Registry) : Prop :=
  ∃ d, s.device id input.deviceID = some d ∧ d.Challenged crypto input challenge

/-- The event leaves the device waiting: it neither revokes nor proves it. -/
def Undisturbed (crypto : Crypto) (hpke : Hpke) (id : WorkspaceID) (deviceID : DeviceID)
    (server : Server) (event : Event) : Prop :=
  ∀ d, ((system crypto hpke).step server event).1.registry.device id deviceID = some d →
    d.membershipState = .pendingProof

theorem Waiting.step {server : Server} {event : Event} (hs : Reachable crypto server.registry)
    (h : Waiting crypto id input challenge server.registry)
    (hevent : Undisturbed crypto hpke id input.deviceID server event) :
    Waiting crypto id input challenge ((system crypto hpke).step server event).1.registry := by
  obtain ⟨d, hd, hchallenged⟩ := h
  rcases system_registry hpke server event with hsame | ⟨call, hcommit⟩
  · rw [hsame]
    exact ⟨d, hd, hchallenged⟩
  · obtain ⟨d', hd', ⟨rfl, -⟩ | ⟨action, -, hmoves⟩⟩ := (commit_step hs.chained hcommit).moves hd
    · exact ⟨d', hd', hchallenged⟩
    · exact ⟨d', hd', Challenged.moves hchallenged hmoves (hevent d' hd')⟩

theorem Waiting.run {server : Server} {events : List Event} (hs : Reachable crypto server.registry)
    (h : Waiting crypto id input challenge server.registry)
    (hevents : (system crypto hpke).Allowed (Undisturbed crypto hpke id input.deviceID) server events) :
    Reachable crypto ((system crypto hpke).run server events).registry ∧
      Waiting crypto id input challenge ((system crypto hpke).run server events).registry :=
  (system crypto hpke).run_invariant
    (I := fun server => Reachable crypto server.registry ∧
      Waiting crypto id input challenge server.registry)
    (fun _ event hserver hevent =>
      ⟨system_reachable hpke hserver.1 event, hserver.2.step hserver.1 hevent⟩) ⟨hs, h⟩ hevents

/-- The reply to a registration, with the key in force. -/
theorem Waiting.reply {challenge : IdentityChallenge} {answer : Bytes}
    (h : Waiting crypto id input challenge.pending s)
    (hanswer : answerChallenge crypto hpke privateKey publicKey id.bytes input.deviceID.bytes
      challenge.encapsulatedKey challenge.ciphertext = some answer) :
    ∃ reply, registrationReply s ⟨⟨id, input.deviceID, input.authToken⟩, challenge⟩ =
        .ok ⟨201, reply⟩ ∧
      proofRequest crypto hpke privateKey publicKey reply =
        some ⟨encodeBase64URL id.bytes, encodeBase64URL input.deviceID.bytes,
          encodeBase64URL input.authToken.bytes, encodeBase64URL answer⟩ := by
  obtain ⟨d, hd, -⟩ := h
  obtain ⟨w, hw, -⟩ := Registry.device_eq_some.mp hd
  simp only [registrationReply, workspaceAuthorityPublicKey, hw, Option.map_some, require, ok_bind]
  refine ⟨_, rfl, ?_⟩
  simp only [proofRequest, decodeBase64URL_encodeBase64URL, Option.bind_eq_bind, Option.bind_some,
    hanswer]
  rfl

/-- The answer completes the proof, until the challenge expires. -/
theorem Waiting.prove {challenge : IdentityChallenge} {answer : Bytes} {instant : Time}
    (h : Waiting crypto id input challenge.pending s) (hvalid : challenge.pending.Valid input.now)
    (hdecode : decodePendingIdentityProof answer = .ok (answerOf crypto id.bytes input.deviceID.bytes
      publicKey challenge.digest challenge.secret))
    (hinstant : unixMillis instant < unixMillis challenge.expiresAt) :
    ∃ s' d, prove crypto s ⟨encodeBase64URL id.bytes, encodeBase64URL input.deviceID.bytes,
        encodeBase64URL input.authToken.bytes, encodeBase64URL answer⟩ instant =
          .ok (s', ⟨200, ⟨"pending_approval"⟩⟩) ∧
      s'.device id input.deviceID = some d ∧ d.membershipState = .pendingApproval := by
  obtain ⟨d, hd, hchallenged⟩ := h
  obtain ⟨w, hw, hfind⟩ := Registry.device_eq_some.mp hd
  obtain ⟨hmem, hid⟩ := Table.find_eq_some.mp hfind
  obtain ⟨hworkspace, rfl⟩ := Registry.find_eq_some.mp hw
  obtain ⟨devices, hcomplete, hreplaces⟩ :=
    completePendingIdentityProof_succeeds instant hw hmem hchallenged hvalid hinstant
  refine ⟨s.put { w with devices }, d.provenAt instant, ?_, ?_, rfl⟩
  · simp only [HttpApi.prove, bind_eq_ok, exists_unit, require_eq_ok, reject_eq_ok, rethrow_eq_ok,
      pure_eq_ok, Prod.mk.injEq, decodeCanonicalBase64URL, WorkspaceBackup.decodeExact_eq_some,
      decodeBase64URL_encodeBase64URL]
    rw [hchallenged.id] at hcomplete
    exact ⟨w.id, rfl, input.deviceID, rfl, input.authToken, rfl, answer, rfl, by simp, _, hdecode,
      by simp [answerOf], _, hcomplete, rfl, trivial⟩
  · refine Registry.device_eq_some.mpr ⟨{ w with devices }, ?_, ?_⟩
    · have hput : s.workspaces.Replaces (s.put { w with devices }).workspaces w { w with devices } :=
        Registry.put_replaces hworkspace rfl
      exact Registry.find_eq_some.mpr ⟨(hput.rows _).mpr (Or.inl rfl), rfl⟩
    · exact Table.find_eq_some.mpr ⟨(hreplaces.rows _).mpr (Or.inl rfl), hid⟩

end Steps

/-- Enrolment completes.  A device with a usable code and the private key of its identity registers,
is answered with a challenge that it can answer, and its answer is accepted until the challenge
expires, whatever requests and calls come between that do not revoke the device or prove it. -/
theorem enrolment_completes (crypto : Crypto) (hpke : Hpke) (server : Server)
    (hs : Reachable crypto server.registry) (request : RegistrationRequest)
    (privateKey publicKey host : Bytes) (now : Time) (random : RegistrationRandom) (code : PairingCode)
    (secret : Block 32)
    (hinvited : Invited crypto hpke server.registry request privateKey publicKey now random code secret)
    (hallowed : (server.membership.allow host now).2 = true) :
    ∃ server₁ registered,
      (system crypto hpke).step server
          (.request now (.register ⟨true, some host, true, some request⟩ random)) =
        (server₁, some (.registered registered)) ∧
      ∀ events, (system crypto hpke).Allowed
          (Undisturbed crypto hpke code.workspaceID random.deviceID) server₁ events →
        ∃ server₂ reply proof, server₂ = (system crypto hpke).run server₁ events ∧
          (∀ instant, (system crypto hpke).step server₂ (.request instant (.registered registered)) =
            (server₂, some (.registration ⟨201, reply⟩))) ∧
          proofRequest crypto hpke privateKey publicKey reply = some proof ∧
          ∀ later, (system crypto hpke).Allowed
              (Undisturbed crypto hpke code.workspaceID random.deviceID) server₂ later →
            ∀ client instant,
              unixMillis instant < unixMillis ⟨now.nanos + identityChallengeLifetime⟩ →
              ∃ server₃ d, (system crypto hpke).step ((system crypto hpke).run server₂ later)
                  (.request instant (.prove ⟨true, client, true, some proof⟩)) =
                    (server₃, some (.done ⟨200, ⟨"pending_approval"⟩⟩)) ∧
                server₃.registry.device code.workspaceID random.deviceID = some d ∧
                d.membershipState = .pendingApproval := by
  obtain ⟨s₁, challenge, answer, d, hregister, hd, hchallenged, hvalid, hexpires, hanswer, hdecode⟩ :=
    hinvited.register hs
  have hstep : ∃ server₁, server₁.registry = s₁ ∧ (system crypto hpke).step server
      (.request now (.register ⟨true, some host, true, some request⟩ random)) =
        (server₁, some (.registered
          ⟨⟨code.workspaceID, random.deviceID, random.authToken⟩, challenge⟩)) := by
    refine ⟨⟨s₁, (server.membership.allow host now).1, server.rotation⟩, rfl, ?_⟩
    simp [system_request, serve, beginLimited, allow, admitted, hallowed, decodeMembershipJSON, require,
      reject, settle, hregister]
  obtain ⟨server₁, rfl, hstep⟩ := hstep
  have hreachable : Reachable crypto server₁.registry := by
    have hnext := system_reachable hpke hs
      (.request now (.register ⟨true, some host, true, some request⟩ random))
    rwa [hstep] at hnext
  have hwaiting : Waiting crypto code.workspaceID
      (registrationInput crypto hpke request publicKey now random) challenge.pending
      server₁.registry := ⟨d, hd, hchallenged⟩
  refine ⟨server₁, _, hstep, fun events hevents => ?_⟩
  obtain ⟨hreached, hbefore⟩ := hwaiting.run hreachable hevents
  obtain ⟨reply, hreply, hproof⟩ := hbefore.reply hanswer
  refine ⟨_, reply, _, rfl, fun instant => ?_, hproof, fun later hlater client instant hinstant => ?_⟩
  · have hanswered : registrationReply ((system crypto hpke).run server₁ events).registry
        ⟨⟨code.workspaceID, random.deviceID, random.authToken⟩, challenge⟩ = .ok ⟨201, reply⟩ := hreply
    simp only [system_request, serve, answered, hanswered]
  · obtain ⟨-, hafter⟩ := hbefore.run hreached hlater
    rw [← hexpires] at hinstant
    obtain ⟨s₃, d, hprove, hd, hstate⟩ := hafter.prove hvalid hdecode hinstant
    refine ⟨{ (system crypto hpke).run ((system crypto hpke).run server₁ events) later with
      registry := s₃ }, d, ?_, hd, hstate⟩
    have hproved : prove crypto ((system crypto hpke).run ((system crypto hpke).run server₁ events)
        later).registry _ instant = .ok (s₃, ⟨200, ⟨"pending_approval"⟩⟩) := hprove
    simp [system_request, serve, beginJSON, decodeMembershipJSON, require, reject, settle, hproved]

/-! The device of the sample server enrols. -/

theorem sample_challengeable : Challengeable sampleCrypto sampleWorkspace.bytes (numbered 15 2).bytes
    sampleIdentity sampleInstant (numbered 31 2) where
  binding := sampleServer_open.2.2.2.2.2
  present := ⟨by decide, by decide⟩
  fresh := by decide
  digest digest h := by
    simp only [challengeDigest, bind_eq_ok, pure_eq_ok] at h
    obtain ⟨encoded, -, rfl⟩ := h
    simp [allZero, domainHash, sampleCrypto]

set_option maxRecDepth 10000 in
theorem enrolment_completes_second : ∃ server₁ registered reply proof server₃ d,
    (system sampleCrypto sampleHpke).step sampleServer
        (.request sampleInstant (.register ⟨true, some [1], true, some sampleRequest⟩ sampleRandom)) =
      (server₁, some (.registered registered)) ∧
    (system sampleCrypto sampleHpke).step server₁ (.request sampleInstant (.registered registered)) =
      (server₁, some (.registration ⟨201, reply⟩)) ∧
    proofRequest sampleCrypto sampleHpke [] sampleIdentity reply = some proof ∧
    (system sampleCrypto sampleHpke).step server₁
        (.request sampleInstant (.prove ⟨true, none, true, some proof⟩)) =
      (server₃, some (.done ⟨200, ⟨"pending_approval"⟩⟩)) ∧
    server₃.registry.device sampleWorkspace (numbered 15 2) = some d ∧
    d.membershipState = .pendingApproval := by
  obtain ⟨⟨-, hdevice⟩, ⟨code, hcode, hhash, hunused, htype, hname, hid, hexpires⟩, htoken, hallowed,
    hvalid, -⟩ := sampleServer_open
  have hinvited : Invited sampleCrypto sampleHpke sampleRegistry sampleRequest [] sampleIdentity
      sampleInstant sampleRandom code (numbered 31 2) :=
    { listed := hcode
      presented := ⟨numbered 23 2, rfl, hhash⟩
      usable := ⟨hunused, hexpires⟩
      deviceType := htype.symm
      deviceName := hvalid
      boundName := by simp [hname]
      identity := ⟨rfl, by decide, by decide, rfl⟩
      opens := fun info plaintext => ⟨[], plaintext, rfl, rfl⟩
      drawn := rfl
      challengeable := by rw [hid]; exact sample_challengeable
      authToken := htoken
      deviceID := by rw [hid]; exact hdevice }
  obtain ⟨server₁, registered, hregister, hrest⟩ := enrolment_completes sampleCrypto sampleHpke
    sampleServer sampleRegistry_reachable sampleRequest [] sampleIdentity [1] sampleInstant sampleRandom
    code (numbered 31 2) hinvited hallowed
  obtain ⟨server₂, reply, proof, rfl, hreply, hproof, hrest⟩ := hrest [] trivial
  obtain ⟨server₃, d, hprove, hd, hstate⟩ := hrest [] trivial none sampleInstant (by decide)
  rw [hid] at hd
  exact ⟨_, registered, reply, proof, server₃, d, hregister, hreply _, hproof, hprove, hd, hstate⟩

end SevenMirror.HttpApi
