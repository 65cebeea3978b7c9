import SevenMirror.Relay.Routing

/-! Where the relay's envelopes come from.  Every row of the delivery store and every frame in the
queue of an instance is traced back to the states of the run in which its sender logged in, its
submission was admitted, and its recipient was found authorized. -/

namespace SevenMirror.Relay

open Lib Protocol Admission MembershipCodec

/-! ### What a submission says -/

/-- The submission is what the reader made of the message. -/
def Submission.Received (s : Submission) : Prop := receive s.sender s.message s.now = .ok (some s)

/-- The envelope is addressed from the sender to the recipient, and is what the client sent. -/
structure Submission.Addressed (s : Submission) : Prop where
  frame : ∃ frame, EnvelopeFrame.decode s.envelope = .ok frame ∧
    RoutingHeader.decode frame.routingHeader.bytes = .ok s.header
  workspace : s.header.workspaceID = s.recipient.workspaceID
  recipient : s.header.recipientDeviceID = s.recipient.deviceID
  senderWorkspace : s.header.workspaceID = s.sender.peer.workspaceID
  sender : s.header.senderDeviceID = s.sender.peer.deviceID
  message : s.message = RelayDelivery.submissionBytes s.durable s.envelope

/-- The bytes that are compared are those that the decoded header is made of. -/
theorem validateRoutedEnvelope_ok {sender recipient : PeerIdentity} {envelope : Bytes}
    {header : RoutingHeader.Header}
    (h : validateRoutedEnvelope sender envelope = .ok (recipient, header)) :
    (∃ frame, EnvelopeFrame.decode envelope = .ok frame ∧
      RoutingHeader.decode frame.routingHeader.bytes = .ok header) ∧
    recipient = ⟨header.workspaceID, header.recipientDeviceID⟩ ∧
    header.workspaceID = sender.workspaceID ∧ header.senderDeviceID = sender.deviceID := by
  simp only [validateRoutedEnvelope, bind_eq_ok, exists_unit, reject_eq_ok, rethrow_eq_ok, pure_eq_ok,
    Prod.mk.injEq, not_or, ne_eq, Decidable.not_not] at h
  obtain ⟨frame, hframe, ⟨hworkspace, hsender⟩, header', hheader, hrecipient, rfl⟩ := h
  obtain ⟨hworkspace', hsender', -⟩ := RoutingHeader.decode_ok hheader
  refine ⟨⟨frame, hframe, hheader⟩, hrecipient.symm, ?_, ?_⟩
  · exact Block.ext (hworkspace'.trans hworkspace)
  · exact Block.ext (hsender'.trans hsender)

theorem Submission.of_addressed {sender : ConnectedSession} {message envelope : Bytes} {now : Time}
    {durable : Bool} {s : Submission} (h : Submission.of sender message now durable envelope = .ok s)
    (hmessage : message = RelayDelivery.submissionBytes durable envelope) :
    s.Addressed ∧ s.sender = sender ∧ s.message = message ∧ s.now = now := by
  simp only [Submission.of, bind_eq_ok, pure_eq_ok] at h
  obtain ⟨⟨recipient, header⟩, hvalid, rfl⟩ := h
  obtain ⟨hframe, rfl, hworkspace, hsender⟩ := validateRoutedEnvelope_ok hvalid
  exact ⟨⟨hframe, rfl, rfl, hworkspace, hsender, hmessage⟩, rfl, rfl, rfl⟩

theorem receive_addressed {sender : ConnectedSession} {message : Bytes} {now : Time} {s : Submission}
    (h : receive sender message now = .ok (some s)) :
    s.Addressed ∧ s.sender = sender ∧ s.message = message ∧ s.now = now := by
  unfold receive at h
  split at h
  · cases h
  · split at h
    · cases h
    · rename_i envelope hdecode
      obtain ⟨s', hs', heq⟩ := map_eq_ok.mp h
      cases heq
      exact Submission.of_addressed hs' (RelayDelivery.decodeClientMessage_online hdecode)
    · rename_i envelope hdecode
      obtain ⟨s', hs', heq⟩ := map_eq_ok.mp h
      cases heq
      exact Submission.of_addressed hs' (RelayDelivery.decodeClientMessage_durable hdecode)
    · cases h
    · cases h

theorem received_of_receive {sender : ConnectedSession} {message : Bytes} {now : Time}
    {s : Submission} (h : receive sender message now = .ok (some s)) : s.Received := by
  obtain ⟨-, hsender, hmessage, hnow⟩ := receive_addressed h
  rw [Submission.Received, hsender, hmessage, hnow]
  exact h

theorem Submission.Received.addressed {s : Submission} (h : s.Received) : s.Addressed :=
  (receive_addressed h).1

/-- The expiry of a row is that of the header: the header bounds it far below 64 bits. -/
theorem header_unixMilli {encoded : Bytes} {header : RoutingHeader.Header}
    (h : RoutingHeader.decode encoded = .ok header) :
    (RelayState.expiry header).unixMilli = header.expiresAtUnixMs := by
  obtain ⟨-, -, hsafe⟩ := RoutingHeader.decode_ok h
  unfold RoutingHeader.maxSafeMillis at hsafe
  have hbmod : (header.expiresAtUnixMs : Int).bmod 0x10000000000000000 = header.expiresAtUnixMs := by
    apply Int.bmod_eq_of_le <;> omega
  rw [RelayState.expiry, hbmod]
  refine Time.unixMilli_ofUnixMilli (Int.natCast_nonneg _) ?_
  unfold maxInt64
  omega

theorem expiry_unixMilli {s : Submission} (h : s.Addressed) :
    (RelayState.expiry s.header).unixMilli = s.header.expiresAtUnixMs := by
  obtain ⟨frame, -, hheader⟩ := h.frame
  exact header_unixMilli hheader

/-- A frame that was decoded at submission is encoded at delivery. -/
theorem encodeDelivery_ok {id : Nat} {envelope : Bytes} {frame : EnvelopeFrame.Frame}
    (hid : 1 ≤ id ∧ id ≤ maxInt64) (h : EnvelopeFrame.decode envelope = .ok frame) :
    ∃ encoded, RelayDelivery.encodeDelivery id envelope = .ok encoded := by
  have hrange : ¬ (id = 0 ∨ id > maxInt64) := by omega
  rw [RelayDelivery.encodeDelivery, reject_neg hrange, h]
  exact ⟨_, rfl⟩

/-! ### Origins -/

section Origins

variable (crypto : Crypto)

/-- On the way to `c`, a token of the credential `version` of `p` was found in the registry. -/
def LoggedIn (c : RelayState) (p : PeerIdentity) (version : Int) : Prop :=
  ∃ c₀ token d, Leads crypto .start c₀ ∧ Leads crypto c₀ c ∧
    loginRow crypto ⟨p.workspaceID, p.deviceID, token⟩ c₀.registry = some d ∧
    (d.credentialVersion : Int) = version

/-- The session is the one in its slot, and is not retired. -/
def RelayState.Active (c : RelayState) (s : ConnectedSession) : Prop :=
  ∃ x, s.session = some x ∧ c.hub.shared.devices s.peer = some x ∧
    (c.hub.shared.sessions x).cancelled = false

/-- In `c` a route admits the submission of an authenticated session that is active. -/
structure Admits (c : RelayState) (s : Submission) : Prop where
  reached : Leads crypto .start c
  submitted : ∃ t, c.activity t = .beginning s
  registered : ∃ u, c.hub.thread u = .registered s.sender
  authenticated : LoggedIn crypto c s.sender.peer s.sender.credentialVersion
  active : c.Active s.sender

def Admitted (c : RelayState) (s : Submission) : Prop := ∃ c₁, Admits crypto c₁ s ∧ Leads crypto c₁ c

/-- In `c` a route finds that the recipient is an approved device. -/
structure Authorizes (c : RelayState) (s : Submission) : Prop where
  admitted : Admitted crypto c s
  approved : isDeviceAuthorized c.registry s.recipient.workspaceID s.recipient.deviceID = true

def Authorized (c : RelayState) (s : Submission) : Prop :=
  ∃ c₂, Authorizes crypto c₂ s ∧ Leads crypto c₂ c

/-- What an `Authenticate` knows between its statements. -/
def LoginKnows (c : RelayState) (input : Login) (rest : LoginStatements) : Prop :=
  rest = authenticate input ∨ rest = selectIdentity input ∨ rest = .done (.error .unauthorized) ∨
    ∃ c₀ d, Leads crypto .start c₀ ∧ Leads crypto c₀ c ∧
      loginRow crypto input c₀.registry = some d ∧ rest = .done (.ok (input.identity d))

/-- The operation that a route begins is one of its sender. -/
def Submission.Begins (s : Submission) : Goroutine → Prop
  | .beginning p x | .checking p x | .refused p x => s.sender.peer = p ∧ s.sender.session = some x
  | _ => True

/-- What goroutine `t` knows of its submission. -/
def Activity.Sound (c : RelayState) (t : Nat) : Activity → Prop
  | .authenticating input rest => LoginKnows crypto c input rest
  | .beginning s => s.Received ∧ (∃ u, c.hub.thread u = .registered s.sender) ∧
      s.Begins (c.hub.thread t)
  | .admitted s => s.Received ∧ Admitted crypto c s
  | .authorized s => s.Received ∧ s.durable = true ∧ Authorized crypto c s
  | _ => True

/-- Whoever registers has logged in. -/
def Goroutine.Vouched (loggedIn : PeerIdentity → Int → Prop) : Goroutine → Prop
  | .registering p version _ | .awaiting p version _ _ _ => loggedIn p version
  | .registered s => loggedIn s.peer s.credentialVersion
  | _ => True

/-- A row of the recipient `r` stores an authorized submission. -/
structure StoresSubmission (c : RelayState) (r : PeerIdentity) (d : Delivery) (s : Submission) :
    Prop where
  received : s.Received
  durable : s.durable = true
  recipient : s.recipient = r
  envelope : s.envelope = d.envelope
  expiry : d.expiresAtMs = s.header.expiresAtUnixMs
  authorized : Authorized crypto c s

/-- A frame in the queue of an instance is an admitted submission to the device of the instance. -/
structure QueuesSubmission (c : RelayState) (y : Nat) (frame : Bytes) (s : Submission) : Prop where
  received : s.Received
  online : s.durable = false
  envelope : s.envelope = frame
  recipient : InstanceOf c.hub y s.recipient
  admitted : Admitted crypto c s

/-- The numbers of a queue are those that a delivery can carry. -/
structure Queue.Numbered (q : Queue) : Prop where
  next : 1 ≤ q.next ∧ q.next ≤ maxInt64
  rows : ∀ d ∈ q.rows, 1 ≤ d.id ∧ d.id < q.next

structure RelayState.Sound (c : RelayState) : Prop where
  reached : Leads crypto .start c
  hub : Threads.Reaches HubStep Hub.start c.hub
  vouched : ∀ t, (c.hub.thread t).Vouched (LoggedIn crypto c)
  activity : ∀ t, (c.activity t).Sound crypto c t
  numbered : ∀ r q, c.deliveries.queues r = some q → q.Numbered
  rows : ∀ r q, c.deliveries.queues r = some q → ∀ d ∈ q.rows,
    ∃ s, StoresSubmission crypto c r d s
  frames : ∀ y, ∀ frame ∈ c.immediate y, ∃ s, QueuesSubmission crypto c y frame s

end Origins

/-! ### Later states -/

section Later

variable {crypto : Crypto} {c c' : RelayState} {s : Submission}

/-- A later state of the same process. -/
structure Later (crypto : Crypto) (c c' : RelayState) : Prop where
  leads : Leads crypto c c'
  registered : ∀ u s, c.hub.thread u = .registered s → c'.hub.thread u = .registered s

theorem LoggedIn.mono {p : PeerIdentity} {version : Int} (h : LoggedIn crypto c p version)
    (hleads : Leads crypto c c') : LoggedIn crypto c' p version := by
  obtain ⟨c₀, token, d, hstart, hc, hrow⟩ := h
  exact ⟨c₀, token, d, hstart, hc.trans hleads, hrow⟩

theorem Admitted.mono (h : Admitted crypto c s) (hleads : Leads crypto c c') :
    Admitted crypto c' s := by
  obtain ⟨c₁, hadmits, hc⟩ := h
  exact ⟨c₁, hadmits, hc.trans hleads⟩

theorem Authorized.mono (h : Authorized crypto c s) (hleads : Leads crypto c c') :
    Authorized crypto c' s := by
  obtain ⟨c₂, hauthorizes, hc⟩ := h
  exact ⟨c₂, hauthorizes, hc.trans hleads⟩

theorem Goroutine.Vouched.mono {g : Goroutine} (h : g.Vouched (LoggedIn crypto c))
    (hleads : Leads crypto c c') : g.Vouched (LoggedIn crypto c') := by
  cases g with
  | registering | awaiting | registered => exact LoggedIn.mono h hleads
  | _ => trivial

theorem LoginKnows.mono {input : Login} {rest : LoginStatements}
    (h : LoginKnows crypto c input rest) (hleads : Leads crypto c c') :
    LoginKnows crypto c' input rest := by
  refine h.imp id (Or.imp id (Or.imp id ?_))
  rintro ⟨c₀, d, hstart, hc, hrow⟩
  exact ⟨c₀, d, hstart, hc.trans hleads, hrow⟩

theorem Activity.Sound.mono {t : Nat} {a : Activity} (h : a.Sound crypto c t)
    (hlater : Later crypto c c') (hthread : c'.hub.thread t = c.hub.thread t) :
    a.Sound crypto c' t := by
  cases a with
  | authenticating input rest => exact LoginKnows.mono h hlater.leads
  | beginning s =>
    obtain ⟨hreceived, ⟨u, hu⟩, hbegins⟩ := h
    exact ⟨hreceived, ⟨u, hlater.registered u _ hu⟩, hthread ▸ hbegins⟩
  | admitted s => exact ⟨h.1, h.2.mono hlater.leads⟩
  | authorized s => exact ⟨h.1, h.2.1, h.2.2.mono hlater.leads⟩
  | _ => trivial

theorem StoresSubmission.mono {r : PeerIdentity} {d : Delivery}
    (h : StoresSubmission crypto c r d s) (hleads : Leads crypto c c') :
    StoresSubmission crypto c' r d s :=
  { h with authorized := h.authorized.mono hleads }

theorem QueuesSubmission.mono {y : Nat} {frame : Bytes} (h : QueuesSubmission crypto c y frame s)
    (hlater : Later crypto c c') : QueuesSubmission crypto c' y frame s := by
  obtain ⟨u, session, hu, hsession⟩ := h.recipient
  exact { h with
    recipient := ⟨u, session, hlater.registered u _ hu, hsession⟩
    admitted := h.admitted.mono hlater.leads }

end Later

/-! ### Steps -/

section Steps

variable {crypto : Crypto} {c c' : RelayState} {t : Nat}

theorem Later.same (hstep : RoutingStep crypto c c') (hhub : c'.hub = c.hub) : Later crypto c c' :=
  ⟨.single hstep, fun _ _ hu => hhub ▸ hu⟩

theorem Later.hubStep {h : Hub} {g : Goroutine} (hstep : RoutingStep crypto c c')
    (hhub : c'.hub = ⟨h, Function.update c.hub.thread t g⟩)
    (hcall : HubStep t c.hub.shared (c.hub.thread t) h g) : Later crypto c c' := by
  refine ⟨.single hstep, fun u s hu => ?_⟩
  have hne : u ≠ t := by
    rintro rfl
    rw [hu] at hcall
    exact hcall.registered_stays
  rw [hhub]
  exact (Function.update_of_ne hne _ _).trans hu

/-- What a step that leaves the hub has to show: the activities it changes, and what it stores. -/
theorem RelayState.Sound.keep (hc : c.Sound crypto) (hstep : RoutingStep crypto c c')
    (hhub : c'.hub = c.hub)
    (hactivity : ∀ u, c'.activity u = c.activity u ∨ (c'.activity u).Sound crypto c' u)
    (hnumbered : ∀ r q, c'.deliveries.queues r = some q → q.Numbered)
    (hrows : ∀ r q, c'.deliveries.queues r = some q → ∀ d ∈ q.rows,
      ∃ s, StoresSubmission crypto c' r d s)
    (hframes : ∀ y, ∀ frame ∈ c'.immediate y, frame ∈ c.immediate y ∨
      ∃ s, QueuesSubmission crypto c' y frame s) : c'.Sound crypto := by
  have hlater := Later.same hstep hhub
  refine ⟨hc.reached.trans hlater.leads, hhub ▸ hc.hub, fun u => ?_, fun u => ?_, hnumbered, hrows,
    fun y frame hframe => ?_⟩
  · rw [hhub]
    exact (hc.vouched u).mono hlater.leads
  · rcases hactivity u with hsame | hsound
    · rw [hsame]
      exact (hc.activity u).mono hlater (by rw [hhub])
    · exact hsound
  · rcases hframes y frame hframe with hold | hnew
    · obtain ⟨s, hs⟩ := hc.frames y frame hold
      exact ⟨s, hs.mono hlater⟩
    · exact hnew

/-- The activity of one goroutine changes, and nothing is stored. -/
theorem RelayState.Sound.set (hc : c.Sound crypto) {a : Activity}
    (hstep : RoutingStep crypto c (c.set t a)) (ha : a.Sound crypto (c.set t a) t) :
    (c.set t a).Sound crypto := by
  have hleads : Leads crypto c (c.set t a) := .single hstep
  refine hc.keep hstep rfl (fun u => ?_) hc.numbered (fun r q hq d hd => ?_)
    (fun _ _ hframe => Or.inl hframe)
  · by_cases hu : u = t
    · subst hu
      right
      simpa [RelayState.set] using ha
    · exact Or.inl (Function.update_of_ne hu _ _)
  · obtain ⟨s, hs⟩ := hc.rows r q hq d hd
    exact ⟨s, hs.mono hleads⟩

/-- One goroutine takes a step of its call of the hub, and its activity may change. -/
theorem RelayState.Sound.withHub (hc : c.Sound crypto) {h : Hub} {g : Goroutine}
    (hstep : RoutingStep crypto c c') (hcall : HubStep t c.hub.shared (c.hub.thread t) h g)
    (hhub : c'.hub = ⟨h, Function.update c.hub.thread t g⟩)
    (hdeliveries : c'.deliveries = c.deliveries) (himmediate : c'.immediate = c.immediate)
    (hothers : ∀ u ≠ t, c'.activity u = c.activity u)
    (hg : g.Vouched (LoggedIn crypto c')) (ha : (c'.activity t).Sound crypto c' t) :
    c'.Sound crypto := by
  have hlater := Later.hubStep hstep hhub hcall
  have hthread : ∀ u ≠ t, c'.hub.thread u = c.hub.thread u := by
    intro u hu
    rw [hhub]
    exact Function.update_of_ne hu _ _
  have hself : c'.hub.thread t = g := by
    rw [hhub]
    exact Function.update_self _ _ _
  refine ⟨hc.reached.trans hlater.leads, ?_, fun u => ?_, fun u => ?_, ?_, fun r q hq d hd => ?_,
    fun y frame hframe => ?_⟩
  · rw [hhub]
    exact hc.hub.tail (.of c.hub t hcall)
  · by_cases hu : u = t
    · subst hu
      exact hself ▸ hg
    · rw [hthread u hu]
      exact (hc.vouched u).mono hlater.leads
  · by_cases hu : u = t
    · exact hu ▸ ha
    · rw [hothers u hu]
      exact (hc.activity u).mono hlater (hthread u hu)
  · rw [hdeliveries]
    exact hc.numbered
  · rw [hdeliveries] at hq
    obtain ⟨s, hs⟩ := hc.rows r q hq d hd
    exact ⟨s, hs.mono hlater.leads⟩
  · rw [himmediate] at hframe
    obtain ⟨s, hs⟩ := hc.frames y frame hframe
    exact ⟨s, hs.mono hlater⟩

/-- A call of the hub that was not just started keeps to who logged in. -/
theorem HubStep.vouched {h h' : Hub} {g g' : Goroutine} {loggedIn : PeerIdentity → Int → Prop}
    (hstep : HubStep t h g h' g') (hg : g.Vouched loggedIn)
    (hidle : g = .idle → ∀ p version n, g' ≠ .registering p version n) : g'.Vouched loggedIn := by
  cases hstep with
  | register identity version queueSize =>
    have hnot := hidle rfl identity version 0
    split
    · trivial
    · split
      · trivial
      · rename_i hversion hsize
        rw [if_neg hversion, if_neg hsize] at hnot
        exact absurd rfl hnot
  | attempt identity version n =>
    unfold Hub.attempt
    split
    · exact hg
    · split
      · trivial
      · exact hg
  | release identity version n existing initiated hreleased =>
    unfold afterRelease
    split
    · exact hg
    · trivial
  | observe observed =>
    unfold Hub.observe
    split
    · trivial
    · split <;> trivial
  | operate observed contextDone hvalid =>
    unfold Hub.enter
    split
    · trivial
    · split <;> trivial
  | check peer x => split <;> trivial
  | _ => trivial

/-- One statement of an `Authenticate`. -/
theorem LoginKnows.statement {input : Login} {q : LoginQuery} {next : q.Rows → LoginStatements}
    (hreached : Leads crypto .start c) (h : LoginKnows crypto c input (.query q next))
    (hleads : Leads crypto c c') :
    LoginKnows crypto c' input (next (answerLogin crypto input c.registry q)) := by
  rcases h with hrest | hrest | hrest | ⟨c₀, d, -, -, -, hrest⟩
  · unfold authenticate at hrest
    split at hrest
    · cases hrest
    · cases hrest
      dsimp only
      split
      · exact Or.inr (Or.inr (Or.inl rfl))
      · exact Or.inr (Or.inl rfl)
  · cases hrest
    cases hrow : loginRow crypto input c.registry with
    | none => exact Or.inr (Or.inr (Or.inl (by simp [answerLogin, hrow])))
    | some d =>
      refine Or.inr (Or.inr (Or.inr ⟨c, d, hreached, hleads, hrow, ?_⟩))
      simp [answerLogin, hrow, Login.identity]
  · cases hrest
  · cases hrest

/-- Who has authenticated has logged in. -/
theorem LoginKnows.loggedIn {input : Login} {identity : DeviceIdentity}
    (h : LoginKnows crypto c input (.done (.ok identity))) :
    LoggedIn crypto c ⟨input.workspaceID, input.deviceID⟩ identity.credentialVersion := by
  rcases h with hrest | hrest | hrest | ⟨c₀, d, hstart, hc, hrow, hrest⟩
  · unfold authenticate at hrest
    split at hrest <;> cases hrest
  · cases hrest
  · cases hrest
  · cases hrest
    exact ⟨c₀, input.authToken, d, hstart, hc, hrow, rfl⟩

/-- The handle of a sender is of an instance that was made. -/
theorem RelayState.Sound.sender_made (hc : c.Sound crypto) {sender : ConnectedSession} {u : Nat}
    (hu : c.hub.thread u = .registered sender) (x : Nat) (hx : sender.session = some x) :
    x < c.hub.shared.made :=
  (handles_of_reaches hc.hub).made x sender.peer ⟨u, sender, hu, rfl, hx⟩

theorem RelayState.live_eq_some {r : PeerIdentity} {y : Nat} (h : c.live r = some y) :
    c.hub.shared.devices r = some y :=
  (Option.filter_eq_some_iff.mp h).1

/-- The rows after a transaction of one recipient, if that of the recipient is accounted for. -/
theorem RelayState.Sound.queue_cases (hc : c.Sound crypto) {r : PeerIdentity} {q : Queue}
    (hinitial : c.deliveries.Initial r q) :
    q.Numbered ∧ ∀ d ∈ q.rows, ∃ s, StoresSubmission crypto c r d s := by
  rcases hinitial with hq | rfl
  · exact ⟨hc.numbered r q hq, hc.rows r q hq⟩
  · exact ⟨⟨by decide, fun d hd => absurd hd List.not_mem_nil⟩, fun d hd => absurd hd List.not_mem_nil⟩

theorem Queue.Numbered.shrinks {q q' : Queue} (h : q.Numbered) (hshrinks : q.Shrinks q') :
    q'.Numbered := by
  refine ⟨hshrinks.next ▸ h.next, fun d hd => ?_⟩
  rw [hshrinks.next]
  exact h.rows d (hshrinks.rows hd)

/-- A call that appends nothing leaves each queue with rows it had. -/
theorem perform_shrinks {s : DeliveryStore} {call : Call} (hcall : call.appends = false)
    {r : PeerIdentity} {q' : Queue} (hq : (perform s call).1.queues r = some q') :
    ∃ q, s.Initial r q ∧ q.Shrinks q' := by
  by_cases hr : call.recipient = some r
  · have hput : ∀ {s' : DeliveryStore}, (∃ q q₁, s.Initial r q ∧ q.Shrinks q₁ ∧ s' = s.put r q₁) →
        s'.queues r = some q' → ∃ q, s.Initial r q ∧ q.Shrinks q' := by
      rintro s' ⟨q, q₁, hinitial, hshrinks, rfl⟩ hq'
      rw [DeliveryStore.put_queues_self] at hq'
      cases hq'
      exact ⟨q, hinitial, hshrinks⟩
    have hsame : s.queues r = some q' → ∃ q, s.Initial r q ∧ q.Shrinks q' :=
      fun hq' => ⟨q', Or.inl hq', .refl q'⟩
    cases call with
    | register device => cases hr
    | append => cases hcall
    | resume recipient cursor now limit =>
      cases hr
      simp only [perform] at hq
      split at hq
      · rename_i batch s' hresume
        obtain ⟨q, q₁, hinitial, hshrinks, hs', -⟩ := resumeDeliveries_rows hresume
        exact hput ⟨q, q₁, hinitial, hshrinks, hs'⟩ hq
      · exact hsame hq
    | read recipient after now limit =>
      cases hr
      simp only [perform] at hq
      split at hq
      · rename_i batch s' hread
        obtain ⟨q, q₁, hinitial, hshrinks, hs', -⟩ := readDeliveries_rows hread
        exact hput ⟨q, q₁, hinitial, hshrinks, hs'⟩ hq
      · exact hsame hq
    | acknowledge recipient cursor =>
      cases hr
      simp only [perform] at hq
      split at hq
      · rename_i s' hacknowledge
        exact hput (acknowledgeDelivery_rows hacknowledge) hq
      · exact hsame hq
  · rw [perform_queues_ne hr] at hq
    exact ⟨q', Or.inl hq, .refl q'⟩

theorem RelayState.Sound.deliveries (hc : c.Sound crypto) {call : Call}
    (hcall : call.appends = false)
    (hstep : RoutingStep crypto c { c with deliveries := (perform c.deliveries call).1 }) :
    RelayState.Sound crypto { c with deliveries := (perform c.deliveries call).1 } := by
  refine hc.keep hstep rfl (fun _ => Or.inl rfl) (fun r q' hq' => ?_) (fun r q' hq' d hd => ?_)
    (fun _ _ hframe => Or.inl hframe)
  · obtain ⟨q, hinitial, hshrinks⟩ := perform_shrinks hcall hq'
    exact (hc.queue_cases hinitial).1.shrinks hshrinks
  · obtain ⟨q, hinitial, hshrinks⟩ := perform_shrinks hcall hq'
    obtain ⟨s, hs⟩ := (hc.queue_cases hinitial).2 d (hshrinks.rows hd)
    exact ⟨s, hs.mono (.single hstep)⟩

/-- What a step stores that leaves the deliveries. -/
theorem RelayState.Sound.rows_later (hc : c.Sound crypto) (hleads : Leads crypto c c')
    {r : PeerIdentity} {q : Queue} (hq : c.deliveries.queues r = some q) (d : Delivery)
    (hd : d ∈ q.rows) : ∃ s, StoresSubmission crypto c' r d s := by
  obtain ⟨s, hs⟩ := hc.rows r q hq d hd
  exact ⟨s, hs.mono hleads⟩

/-- Only the activity of `t` changes, to one that knows nothing. -/
theorem activity_set (c₁ : RelayState) {a : Activity} (hsame : c₁.activity = c.activity)
    (ha : a.Sound crypto (c₁.set t a) t) (u : Nat) :
    (c₁.set t a).activity u = c.activity u ∨
      ((c₁.set t a).activity u).Sound crypto (c₁.set t a) u := by
  by_cases hu : u = t
  · subst hu
    right
    simpa [RelayState.set] using ha
  · left
    rw [← hsame]
    exact Function.update_of_ne hu _ _

/-- `RouteOnline` hands its submission to an instance of the recipient. -/
theorem RelayState.Sound.routeOnline (hc : c.Sound crypto) {s : Submission}
    (hs : c.activity t = .admitted s) (honline : s.durable = false)
    (hstep : RoutingStep crypto c ((c.routeOnline s).1.set t (.finishing s (c.routeOnline s).2))) :
    ((c.routeOnline s).1.set t (.finishing s (c.routeOnline s).2)).Sound crypto := by
  obtain ⟨hreceived, hadmitted⟩ : s.Received ∧ Admitted crypto c s := by
    have hactivity := hc.activity t
    rwa [hs] at hactivity
  rcases c.routeOnline_cases s with ⟨e, hroute⟩ | ⟨y, hlive, hroute⟩
  · rw [hroute] at hstep ⊢
    exact hc.set hstep trivial
  · rw [hroute] at hstep ⊢
    refine hc.keep hstep rfl (activity_set _ rfl trivial) hc.numbered
      (fun r q hq => hc.rows_later (.single hstep) hq) fun z frame hframe => ?_
    by_cases hz : z = y
    · subst hz
      simp only [RelayState.set, Function.update_self] at hframe
      rcases List.mem_append.mp hframe with hold | hnew
      · exact Or.inl hold
      · cases List.mem_singleton.mp hnew
        have hinstance := (handles_of_reaches hc.hub).slot _ _ (RelayState.live_eq_some hlive)
        exact Or.inr ⟨s, hreceived, honline, rfl, hinstance, hadmitted.mono (.single hstep)⟩
    · left
      simpa [RelayState.set, hz] using hframe

/-- The queue of a recipient after its append. -/
theorem RelayState.Sound.append_queue (hc : c.Sound crypto) {s : Submission} {id : Nat}
    {deliveries : DeliveryStore} (hreceived : s.Received) (hdurable : s.durable = true)
    (hauthorized : Authorized crypto c s) (hleads : Leads crypto c c')
    (happend : appendDelivery c.deliveries s.recipient s.envelope (RelayState.expiry s.header) s.now =
      .ok (id, deliveries)) {r : PeerIdentity} {q : Queue} (hq : deliveries.queues r = some q) :
    q.Numbered ∧ ∀ d ∈ q.rows, ∃ s, StoresSubmission crypto c' r d s := by
  obtain ⟨q₀, q₁, hinitial, rfl, hone, hmax, hnext, hrows⟩ := appendDelivery_rows happend
  obtain ⟨hnumbered, hold⟩ := hc.queue_cases hinitial
  by_cases hr : r = s.recipient
  · subst hr
    rw [DeliveryStore.put_queues_self] at hq
    cases hq
    have hbound := hnumbered.next
    refine ⟨⟨by omega, fun d hd => ?_⟩, fun d hd => ?_⟩
    · rcases hrows d hd with hd | rfl
      · have hrow := hnumbered.rows d hd
        omega
      · dsimp only
        omega
    · rcases hrows d hd with hd | rfl
      · obtain ⟨s', hs'⟩ := hold d hd
        exact ⟨s', hs'.mono hleads⟩
      · have hexpiry := expiry_unixMilli hreceived.addressed
        refine ⟨s, hreceived, hdurable, rfl, rfl, ?_, hauthorized.mono hleads⟩
        dsimp only
        exact hexpiry
  · rw [DeliveryStore.put_queues_ne _ _ hr] at hq
    exact ⟨hc.numbered r q hq, fun d hd => hc.rows_later hleads hq d hd⟩

/-- `RouteDurable` stores its submission for the recipient. -/
theorem RelayState.Sound.append (hc : c.Sound crypto) {s : Submission}
    (hs : c.activity t = .authorized s)
    (hstep : RoutingStep crypto c ((c.append s).1.set t (c.append s).2)) :
    ((c.append s).1.set t (c.append s).2).Sound crypto := by
  obtain ⟨hreceived, hdurable, hauthorized⟩ :
      s.Received ∧ s.durable = true ∧ Authorized crypto c s := by
    have hactivity := hc.activity t
    rwa [hs] at hactivity
  rcases c.append_cases s with ⟨e, happend⟩ | ⟨id, deliveries, hcommit, happend⟩
  · rw [happend] at hstep ⊢
    exact hc.set hstep trivial
  · rw [happend] at hstep ⊢
    have hqueue {r : PeerIdentity} {q : Queue} (hq : deliveries.queues r = some q) :=
      hc.append_queue hreceived hdurable hauthorized (.single hstep) hcommit hq
    exact hc.keep hstep rfl (activity_set _ rfl trivial) (fun r q hq => (hqueue hq).1)
      (fun r q hq => (hqueue hq).2) (fun _ _ hframe => Or.inl hframe)

/-- A submission of a session that is active is admitted. -/
theorem RelayState.Sound.admits (hc : c.Sound crypto) {s : Submission} {p : PeerIdentity} {x : Nat}
    (hs : c.activity t = .beginning s) (hthread : c.hub.thread t = .checking p x)
    (hactive : c.hub.shared.devices p = some x ∧ (c.hub.shared.sessions x).cancelled = false) :
    Admits crypto c s := by
  have hactivity := hc.activity t
  rw [hs] at hactivity
  obtain ⟨-, ⟨u, hu⟩, hbegins⟩ := hactivity
  rw [hthread] at hbegins
  obtain ⟨rfl, hsession⟩ := hbegins
  have hvouched := hc.vouched u
  rw [hu] at hvouched
  exact ⟨hc.reached, ⟨t, hs⟩, ⟨u, hu⟩, hvouched, x, hsession, hactive⟩

/-- A step of `beginOperation` that does not admit the submission. -/
theorem RelayState.Sound.beginStep (hc : c.Sound crypto) {s : Submission} {h : Hub} {g : Goroutine}
    (hs : c.activity t = .beginning s) (hstep : RoutingStep crypto c c')
    (hcall : HubStep t c.hub.shared (c.hub.thread t) h g) (heq : c' = c.withHub t h g)
    (hg : g.Vouched (LoggedIn crypto c')) (hbegins : s.Begins (c.hub.thread t) → s.Begins g) :
    c'.Sound crypto := by
  subst heq
  have hsound := hc.activity t
  rw [hs] at hsound
  obtain ⟨hreceived, ⟨u, hu⟩, hbefore⟩ := hsound
  have hlater := Later.hubStep hstep rfl hcall
  refine hc.withHub (t := t) hstep hcall rfl rfl rfl (fun _ _ => rfl) hg ?_
  simp only [RelayState.withHub, hs]
  refine ⟨hreceived, ⟨u, hlater.registered u _ hu⟩, ?_⟩
  simp only [Function.update_self]
  exact hbegins hbefore

/-- A step that leaves the hub, the activities, and the deliveries, and queues no frame. -/
theorem RelayState.Sound.aside (hc : c.Sound crypto) (hstep : RoutingStep crypto c c')
    (hhub : c'.hub = c.hub) (hactivity : c'.activity = c.activity)
    (hdeliveries : c'.deliveries = c.deliveries)
    (himmediate : ∀ y, ∀ frame ∈ c'.immediate y, frame ∈ c.immediate y) : c'.Sound crypto := by
  refine hc.keep hstep hhub (fun u => Or.inl (congrFun hactivity u)) ?_ ?_
    fun y frame hframe => Or.inl (himmediate y frame hframe)
  · rw [hdeliveries]
    exact hc.numbered
  · rw [hdeliveries]
    exact fun r q hq => hc.rows_later (.single hstep) hq

-- the lemmas below take one act each, and `RelayState.Sound.act` puts them together
attribute [local simp] RelayState.act

/-- A device that has authenticated asks the hub for its slot. -/
theorem RelayState.Sound.register (hc : c.Sound crypto)
    (h : c.act crypto (.register t) = some c') : c'.Sound crypto := by
  have hstep : RoutingStep crypto c c' := .act c _ c' h
  simp only [RelayState.act] at h
  split at h
  · rename_i input identity hactivity hthread
    split at h
    · cases h
    · rename_i hversion
      cases h
      have hknows := hc.activity t
      rw [hactivity] at hknows
      have hcall := HubStep.register (t := t) c.hub.shared ⟨input.workspaceID, input.deviceID⟩
        identity.credentialVersion 16
      rw [if_neg (by omega), if_neg (by decide)] at hcall
      refine hc.withHub (t := t) hstep (hthread ▸ hcall) rfl rfl rfl
        (fun u hu => Function.update_of_ne hu _ _)
        (LoginKnows.loggedIn (LoginKnows.mono hknows (.single hstep))) ?_
      simp [RelayState.withHub, RelayState.set, Activity.Sound]
  · cases h

/-- The reader of a connection hands over what it was sent. -/
theorem RelayState.Sound.submit (hc : c.Sound crypto) {u : Nat} {message : Bytes} {now : Time}
    (h : c.act crypto (.submit t u message now) = some c') : c'.Sound crypto := by
  have hstep : RoutingStep crypto c c' := .act c _ c' h
  simp only [RelayState.act] at h
  split at h
  · rename_i sender hactivity hthread hsender
    split at h
    · cases h
      exact hc.set hstep trivial
    · cases h
    · rename_i s hreceive
      cases h
      obtain ⟨-, rfl, -⟩ := receive_addressed hreceive
      refine hc.set hstep ⟨received_of_receive hreceive, ⟨u, hsender⟩, ?_⟩
      simp only [RelayState.set, hthread]
      trivial
  · cases h

theorem RelayState.Sound.enter (hc : c.Sound crypto) {contextDone : Bool}
    (h : c.act crypto (.enter t contextDone) = some c') : c'.Sound crypto := by
  have hstep : RoutingStep crypto c c' := .act c _ c' h
  simp only [RelayState.act] at h
  split at h
  · rename_i s hactivity hthread
    cases h
    have hsound := hc.activity t
    rw [hactivity] at hsound
    obtain ⟨-, ⟨u, hu⟩, -⟩ := hsound
    have hcall := HubStep.operate (t := t) c.hub.shared s.sender contextDone (hc.sender_made hu)
    rcases c.hub.shared.enter_cases s.sender contextDone with hfinished | ⟨x, hx, hbeginning⟩
    · rw [hfinished] at hcall hstep ⊢
      exact hc.beginStep hactivity hstep (hthread ▸ hcall) rfl trivial fun _ => trivial
    · rw [hbeginning] at hcall hstep ⊢
      exact hc.beginStep hactivity hstep (hthread ▸ hcall) rfl trivial fun _ => ⟨rfl, hx⟩
  · cases h

theorem RelayState.Sound.rLock (hc : c.Sound crypto) (h : c.act crypto (.rLock t) = some c') :
    c'.Sound crypto := by
  have hstep : RoutingStep crypto c c' := .act c _ c' h
  simp only [RelayState.act] at h
  split at h
  · rename_i s p x hactivity hthread
    split at h
    · rename_i hw
      cases h
      have hcall := HubStep.rLock (t := t) c.hub.shared p x hw
      refine hc.beginStep hactivity hstep (hthread ▸ hcall) rfl trivial fun hbegins => ?_
      rw [hthread] at hbegins
      exact hbegins
    · cases h
  · cases h

/-- The check that admits a submission. -/
theorem RelayState.Sound.check (hc : c.Sound crypto) (h : c.act crypto (.check t) = some c') :
    c'.Sound crypto := by
  have hstep : RoutingStep crypto c c' := .act c _ c' h
  simp only [RelayState.act] at h
  split at h
  · rename_i s p x hactivity hthread
    have hcall := HubStep.check (t := t) c.hub.shared p x
    split at h
    · rename_i hactive
      cases h
      rw [if_pos hactive] at hcall
      have hadmits := hc.admits hactivity hthread hactive
      have hsound := hc.activity t
      rw [hactivity] at hsound
      refine hc.withHub (t := t) hstep (hthread ▸ hcall) rfl rfl rfl
        (fun u hu => Function.update_of_ne hu _ _) trivial ?_
      simp only [RelayState.set, RelayState.withHub, Function.update_self]
      exact ⟨hsound.1, c, hadmits, .single hstep⟩
    · rename_i hinactive
      cases h
      rw [if_neg hinactive] at hcall
      refine hc.beginStep hactivity hstep (hthread ▸ hcall) rfl trivial fun hbegins => ?_
      rw [hthread] at hbegins
      exact hbegins
  · cases h

/-- The check of the recipient, before its append. -/
theorem RelayState.Sound.authorize (hc : c.Sound crypto)
    (h : c.act crypto (.authorize t) = some c') : c'.Sound crypto := by
  have hstep : RoutingStep crypto c c' := .act c _ c' h
  simp only [RelayState.act] at h
  split at h
  · rename_i s hactivity
    simp only [Option.ite_none_right_eq_some] at h
    obtain ⟨hdurable, h⟩ := h
    cases h
    have hsound := hc.activity t
    rw [hactivity] at hsound
    rcases c.authorize_cases s with ⟨happroved, hauthorize⟩ | ⟨e, hauthorize⟩
    · rw [hauthorize] at hstep ⊢
      exact hc.set hstep ⟨hsound.1, hdurable, c, ⟨hsound.2, happroved⟩, .single hstep⟩
    · rw [hauthorize] at hstep ⊢
      exact hc.set hstep trivial
  · cases h

theorem RelayState.Sound.wake (hc : c.Sound crypto) (h : c.act crypto (.wake t) = some c') :
    c'.Sound crypto := by
  have hstep : RoutingStep crypto c c' := .act c _ c' h
  simp only [RelayState.act] at h
  split at h
  · rename_i s hactivity
    cases h
    obtain ⟨durableWake, hwake⟩ := c.wake_eq s
    rw [hwake] at hstep ⊢
    exact hc.keep hstep rfl (activity_set _ rfl trivial) hc.numbered
      (fun r q hq => hc.rows_later (.single hstep) hq) (fun _ _ hframe => Or.inl hframe)
  · cases h

theorem RelayState.Sound.finish (hc : c.Sound crypto) (h : c.act crypto (.finish t) = some c') :
    c'.Sound crypto := by
  have hstep : RoutingStep crypto c c' := .act c _ c' h
  simp only [RelayState.act] at h
  split at h
  · rename_i s result p x hactivity hthread
    cases h
    have hcall := HubStep.finish (t := t) c.hub.shared p x
    refine hc.withHub (t := t) hstep (hthread ▸ hcall) rfl rfl rfl
      (fun u hu => Function.update_of_ne hu _ _) trivial ?_
    simp [RelayState.set, RelayState.withHub, Activity.Sound]
  · cases h

/-- The writer of an instance takes a frame from its queue. -/
theorem RelayState.Sound.take (hc : c.Sound crypto) {y : Nat}
    (h : c.act crypto (.take y) = some c') : c'.Sound crypto := by
  have hstep : RoutingStep crypto c c' := .act c _ c' h
  simp only [RelayState.act] at h
  split at h
  · cases h
  · rename_i frame rest himmediate
    cases h
    refine hc.aside hstep rfl rfl rfl fun z frame' hframe => ?_
    by_cases hz : z = y
    · subst hz
      simp only [Function.update_self] at hframe
      rw [himmediate]
      exact List.mem_cons_of_mem _ hframe
    · simpa [hz] using hframe

/-- Every step of the relay keeps the origins. -/
theorem RelayState.Sound.act (hc : c.Sound crypto) {a : Act} (h : c.act crypto a = some c') :
    c'.Sound crypto := by
  have hstep : RoutingStep crypto c c' := .act c a c' h
  cases a with
  | commit call =>
    cases h
    exact hc.aside hstep rfl rfl rfl fun _ _ hframe => hframe
  | deliveries call =>
    simp only [RelayState.act, Option.ite_none_left_eq_some, Bool.not_eq_true] at h
    obtain ⟨hcall, h⟩ := h
    cases h
    exact hc.deliveries hcall hstep
  | dial t input =>
    simp only [RelayState.act] at h
    split at h
    · cases h
      exact hc.set hstep (Or.inl rfl)
    · cases h
  | statement t =>
    simp only [RelayState.act] at h
    split at h
    · rename_i input q next hactivity
      cases h
      have hknows := hc.activity t
      rw [hactivity] at hknows
      exact hc.set hstep (LoginKnows.statement hc.reached hknows (.single hstep))
    · cases h
  | register t => exact hc.register h
  | submit t u message now => exact hc.submit h
  | enter t contextDone => exact hc.enter h
  | rLock t => exact hc.rLock h
  | check t => exact hc.check h
  | refuse t =>
    simp only [RelayState.act] at h
    split at h
    · rename_i s p x hactivity hthread
      cases h
      have hcall := HubStep.refuse (t := t) c.hub.shared p x
      exact hc.beginStep hactivity hstep (hthread ▸ hcall) rfl trivial fun _ => trivial
    · cases h
  | offline t =>
    simp only [RelayState.act] at h
    split at h
    · cases h
      exact hc.set hstep trivial
    · cases h
  | route t =>
    simp only [RelayState.act] at h
    split at h
    · rename_i s hactivity
      simp only [Option.ite_none_left_eq_some, Bool.not_eq_true] at h
      obtain ⟨honline, h⟩ := h
      cases h
      exact hc.routeOnline hactivity honline hstep
    · cases h
  | authorize t => exact hc.authorize h
  | append t =>
    simp only [RelayState.act] at h
    split at h
    · rename_i s hactivity
      obtain rfl := Option.some.inj h
      exact hc.append hactivity hstep
    · cases h
  | wake t => exact hc.wake h
  | interrupt t =>
    simp only [RelayState.act] at h
    split at h
    case h_4 => cases h
    all_goals
      cases h
      exact hc.set hstep trivial
  | finish t => exact hc.finish h
  | take y => exact hc.take h
  | takeWake y =>
    simp only [RelayState.act, Option.ite_none_right_eq_some] at h
    obtain ⟨-, h⟩ := h
    cases h
    exact hc.aside hstep rfl rfl rfl fun _ _ hframe => hframe
  | restart =>
    cases h
    refine ⟨hc.reached.trans (.single hstep), .refl, fun _ => trivial, fun _ => trivial, hc.numbered,
      fun r q hq => hc.rows_later (.single hstep) hq, fun _ _ hframe => absurd hframe List.not_mem_nil⟩

theorem RelayState.Sound.step (hc : c.Sound crypto) (hstep : RoutingStep crypto c c') :
    c'.Sound crypto := by
  cases hstep with
  | act a _ h => exact hc.act h
  | hub t h g hfree hregister hcall =>
    have hstep : RoutingStep crypto c (c.withHub t h g) := .hub c t h g hfree hregister hcall
    have hvouched : g.Vouched (LoggedIn crypto c) :=
      hcall.vouched (hc.vouched t) fun hidle p version n => hregister p version n hidle
    refine hc.withHub (t := t) hstep hcall rfl rfl rfl (fun _ _ => rfl)
      (hvouched.mono (.single hstep)) ?_
    rcases hfree with hidle | hconnecting
    · simp [RelayState.withHub, hidle, Activity.Sound]
    · simp [RelayState.withHub, hconnecting, Activity.Sound]

end Steps

/-! ### Every run -/

theorem start_sound (crypto : Crypto) : RelayState.start.Sound crypto where
  reached := .refl
  hub := .refl
  vouched _ := trivial
  activity _ := trivial
  numbered r q hq := by cases hq
  rows r q hq := by cases hq
  frames _ _ hframe := absurd hframe List.not_mem_nil

theorem Leads.sound {crypto : Crypto} {c : RelayState} (h : Leads crypto .start c) :
    c.Sound crypto := by
  induction h with
  | refl => exact start_sound crypto
  | tail _ hstep ih => exact ih.step hstep

/-- Every stored row can be delivered. -/
theorem RelayState.Sound.encodes {crypto : Crypto} {c : RelayState} (hc : c.Sound crypto)
    {r : PeerIdentity} {q : Queue} (hinitial : c.deliveries.Initial r q) {d : Delivery}
    (hd : d ∈ q.rows) : ∃ encoded, RelayDelivery.encodeDelivery d.id d.envelope = .ok encoded := by
  obtain ⟨hnumbered, hrows⟩ := hc.queue_cases hinitial
  obtain ⟨s, hs⟩ := hrows d hd
  obtain ⟨frame, hframe, -⟩ := hs.received.addressed.frame
  have hid := hnumbered.rows d hd
  have hnext := hnumbered.next
  exact encodeDelivery_ok (by omega) (hs.envelope ▸ hframe)

/-! ### A run -/

/-- The acts, one after the other. -/
def RelayState.acts (crypto : Crypto) (c : RelayState) : List Act → Option RelayState
  | [] => some c
  | a :: rest =>
    match c.act crypto a with
    | none => none
    | some c' => c'.acts crypto rest

theorem RelayState.leads_acts {crypto : Crypto} {c : RelayState} {acts : List Act}
    (h : (c.acts crypto acts).isSome = true) :
    Leads crypto c ((c.acts crypto acts).getD c) := by
  induction acts generalizing c with
  | nil => exact .refl
  | cons a rest ih =>
    simp only [RelayState.acts] at h ⊢
    cases hact : c.act crypto a with
    | none => simp [hact] at h
    | some c' =>
      simp only [hact] at h ⊢
      have hrest := ih h
      obtain ⟨last, hlast⟩ := Option.isSome_iff_exists.mp h
      rw [hlast, Option.getD_some] at hrest ⊢
      exact .head (.act c a c' hact) hrest

/-- Device `n` of the workspace. -/
def samplePeer (n : UInt8) : PeerIdentity := ⟨sampleWorkspace, numbered 15 n⟩

/-- An envelope from device 1 to device 2. -/
def addressedEnvelope : Bytes :=
  EnvelopeFrame.magic ++ RoutingHeader.magic ++ [0, 1, 0, 0] ++ sampleWorkspace.bytes ++
    (numbered 15 1).bytes ++ (numbered 15 2).bytes ++ List.replicate 80 1 ++
    toBigEndian 8 1 ++ toBigEndian 8 1800000000000 ++ toBigEndian 8 1800000001000 ++
    4 :: List.replicate 64 0 ++ toBigEndian 4 16 ++ List.replicate 16 0

/-- Device `n` logs in and registers, as goroutine `t`. -/
def connect (t : Nat) (n : UInt8) : List Act :=
  [.dial t ⟨sampleWorkspace, numbered 15 n, (numbered 31 n).bytes⟩, .statement t, .statement t,
    .register t]

/-- Goroutine 0's session submits a message, as goroutine `t`, and is admitted. -/
def submitSample (t : Nat) (message : Bytes) : List Act :=
  [.submit t 0 message sampleInstant, .enter t false, .rLock t, .check t]

/-- Two devices join, and both connect. -/
def connectedActs : List Act :=
  (sampleCreation :: enroll 1 ++ enroll 2).map .commit ++ [.deliveries (.register (samplePeer 2))] ++
    connect 0 1 ++ connect 1 2

/-- Device 1 sends the envelope to device 2, online and durable. -/
def routedActs : List Act :=
  submitSample 2 addressedEnvelope ++ [.route 2] ++
    submitSample 3 (RelayDelivery.submissionBytes true addressedEnvelope) ++ [.authorize 3, .append 3]

/-- The critical section of the `Register` of goroutine `t`. -/
def RelayState.attempt (c : RelayState) (t : Nat) (n : UInt8) : RelayState :=
  c.withHub t (c.hub.shared.attempt (samplePeer n) 1 0).1 (c.hub.shared.attempt (samplePeer n) 1 0).2

/-- The goroutine has authenticated its connection. -/
def Activity.isConnecting : Activity → Bool
  | .connecting => true
  | _ => false

theorem Activity.eq_connecting {a : Activity} (h : a.isConnecting = true) : a = .connecting := by
  cases a with
  | connecting => rfl
  | _ => cases h

theorem RelayState.attempt_step {crypto : Crypto} {c : RelayState} {t : Nat} {n : UInt8}
    (hthread : c.hub.thread t = .registering (samplePeer n) 1 0)
    (hactivity : (c.activity t).isConnecting = true) : RoutingStep crypto c (c.attempt t n) := by
  refine .hub c t _ _ (Or.inr (Activity.eq_connecting hactivity)) (fun p version k hidle => ?_)
    (hthread ▸ .attempt _ _ _ _)
  rw [hthread] at hidle
  cases hidle

def sampleConnected : RelayState := (RelayState.start.acts sampleCrypto connectedActs).getD .start

def sampleRegistered : RelayState := (sampleConnected.attempt 0 1).attempt 1 2

def sampleRouted : RelayState := (sampleRegistered.acts sampleCrypto routedActs).getD sampleRegistered

/-- What the run comes by: its steps are enabled, device 2 has a row and an instance, and the envelope
is queued there. -/
theorem sampleRouted_run :
    ((RelayState.start.acts sampleCrypto connectedActs).isSome = true ∧
      sampleConnected.hub.thread 0 = .registering (samplePeer 1) 1 0 ∧
      (sampleConnected.activity 0).isConnecting = true ∧
      (sampleConnected.attempt 0 1).hub.thread 1 = .registering (samplePeer 2) 1 0 ∧
      ((sampleConnected.attempt 0 1).activity 1).isConnecting = true ∧
      (sampleRegistered.acts sampleCrypto routedActs).isSome = true) ∧
    (sampleRouted.deliveries.queues (samplePeer 2)).isSome = true ∧
    (((sampleRouted.deliveries.queues (samplePeer 2)).map (·.rows)).getD []).length = 1 ∧
    sampleRouted.hub.shared.devices (samplePeer 2) = some 1 ∧
    addressedEnvelope ∈ sampleRouted.immediate 1 := by
  decide +kernel

theorem leads_sampleRouted : Leads sampleCrypto .start sampleRouted := by
  obtain ⟨⟨hacts, hthread, hactivity, hthread', hactivity', hacts'⟩, -⟩ := sampleRouted_run
  have hconnected : Leads sampleCrypto .start sampleConnected := RelayState.leads_acts hacts
  have hfirst : RoutingStep sampleCrypto sampleConnected (sampleConnected.attempt 0 1) :=
    RelayState.attempt_step hthread hactivity
  have hsecond : RoutingStep sampleCrypto (sampleConnected.attempt 0 1) sampleRegistered :=
    RelayState.attempt_step hthread' hactivity'
  have hrouted : Leads sampleCrypto sampleRegistered sampleRouted := RelayState.leads_acts hacts'
  exact ((hconnected.tail hfirst).tail hsecond).trans hrouted

/-! ### Routing -/

/-- In every state of every run of the relay, whatever its clients send and however its processes
restart: a stored row is a submission to the recipient by an authenticated session that was active,
addressed and stored as it was sent, with the expiry of its header, and its recipient was approved
when it was authorized; a frame in the queue of an instance is such a submission to the device of the
instance; and every row, and every entry of a batch that is read, can be encoded for delivery. -/
theorem routing_bound_to_sender (crypto : Crypto) (c : RelayState)
    (hrun : Leads crypto .start c) :
    (∀ r q, c.deliveries.queues r = some q → ∀ d ∈ q.rows,
      (∃ s, StoresSubmission crypto c r d s ∧ s.Addressed) ∧
      ∃ encoded, RelayDelivery.encodeDelivery d.id d.envelope = .ok encoded) ∧
    (∀ p y, c.hub.shared.devices p = some y ∨ InstanceOf c.hub y p → ∀ frame ∈ c.immediate y,
      ∃ s, QueuesSubmission crypto c y frame s ∧ s.recipient = p ∧ s.Addressed) ∧
    ∀ r cursor now limit batch deliveries,
      resumeDeliveries c.deliveries r cursor now limit = .ok (batch, deliveries) ∨
        readDeliveries c.deliveries r cursor now limit = .ok (batch, deliveries) →
      ∀ e ∈ batch.deliveries,
        ∃ encoded, RelayDelivery.encodeDelivery e.id e.envelope = .ok encoded := by
  have hc := hrun.sound
  refine ⟨fun r q hq d hd => ⟨?_, hc.encodes (Or.inl hq) hd⟩, fun p y hy frame hframe => ?_, ?_⟩
  · obtain ⟨s, hs⟩ := hc.rows r q hq d hd
    exact ⟨s, hs, hs.received.addressed⟩
  · have hhandles := handles_of_reaches hc.hub
    obtain ⟨s, hs⟩ := hc.frames y frame hframe
    have hinstance : InstanceOf c.hub y p := by
      rcases hy with hslot | hinstance
      · exact hhandles.slot p y hslot
      · exact hinstance
    exact ⟨s, hs, hhandles.peer y _ p hs.recipient hinstance, hs.received.addressed⟩
  · intro r cursor now limit batch deliveries hread e he
    obtain ⟨q, q', hinitial, hshrinks, -, hbatch⟩ :
        ∃ q q', c.deliveries.Initial r q ∧ q.Shrinks q' ∧ deliveries = c.deliveries.put r q' ∧
          ∀ e ∈ batch.deliveries, ∃ d ∈ q'.rows, e = ⟨d.id, d.envelope⟩ := by
      rcases hread with hresume | hread
      · exact resumeDeliveries_rows hresume
      · exact readDeliveries_rows hread
    obtain ⟨d, hd, rfl⟩ := hbatch e he
    exact hc.encodes hinitial (hshrinks.rows hd)

theorem routing_bound_to_sender_both : ∃ c q d frame, Leads sampleCrypto .start c ∧
    c.deliveries.queues (samplePeer 2) = some q ∧ d ∈ q.rows ∧
    c.hub.shared.devices (samplePeer 2) = some 1 ∧ frame ∈ c.immediate 1 ∧
    (∃ s, StoresSubmission sampleCrypto c (samplePeer 2) d s ∧ s.Addressed) ∧
    ∃ s, QueuesSubmission sampleCrypto c 1 frame s ∧ s.recipient = samplePeer 2 ∧ s.Addressed := by
  obtain ⟨-, hqueue, hrow, hslot, hframe⟩ := sampleRouted_run
  obtain ⟨q, hq⟩ := Option.isSome_iff_exists.mp hqueue
  rw [hq, Option.map_some, Option.getD_some] at hrow
  obtain ⟨d, hd⟩ := List.exists_mem_of_length_pos (hrow ▸ Nat.one_pos)
  obtain ⟨hrows, hframes, -⟩ := routing_bound_to_sender sampleCrypto sampleRouted leads_sampleRouted
  exact ⟨sampleRouted, q, d, addressedEnvelope, leads_sampleRouted, hq, hd, hslot, hframe,
    (hrows _ q hq d hd).1, hframes _ 1 (Or.inl hslot) _ hframe⟩

end SevenMirror.Relay
