import SevenMirror.Relay.Writer
import SevenMirror.Relay.HubRun

/-! How a connection ends: the select loop and `writeMessage` of the writer goroutine in
`internal/relay/websocket.go`, the read loop, and the parties that retire the instance.  A retired
instance has its operation context cancelled at once, while the writer learns of it in its select,
where other cases may be ready too. -/

namespace SevenMirror.Relay

/-- A frame on the socket, after `SNO1`. -/
inductive Frame
  | message (message : ServerMessage)
  | close (code : Nat)
deriving DecidableEq, Repr

def closePolicyViolation : Nat := 1008

def closeNormalClosure : Nat := 1000

/-- The code that tells the client of the retirement. -/
def SessionRetirement.closeCode : SessionRetirement → Nat
  | .revoked => closePolicyViolation
  | .superseded => closeNormalClosure

/-- What the writer passes to `reportWriterError`. -/
inductive WriterError
  | retired (reason : SessionRetirement)
  | failed
deriving DecidableEq, Repr

/-- Where the writer stands: in its select; in `writeMessage`, before `beginOperation` or with the
frame on the socket, and then back to the select or to `drainBatch`; before a transaction of the
store; in `drainBatch` between two writes; before the close frame; in `reportWriterError`. -/
inductive WriterAt
  | selecting
  | entering (message : ServerMessage) (drains : Bool)
  | busy (message : ServerMessage) (drains : Bool)
  | storing
  | draining
  | closing (reason : SessionRetirement)
  | reporting (error : WriterError)
  | returned
deriving DecidableEq, Repr

/-- Where the reader stands: before the check of `writerErrors`, in `ReadMessage`, with a message of
the client, or in the deferred calls, where it unregisters and then hangs up. -/
inductive ReaderAt
  | checking
  | reading
  | handling
  | leaving
  | unregistered
  | returned
deriving DecidableEq, Repr

/-- `contextDone` is the session context, and `retirement` the reason for which another party retired
the instance, if the loop of the writer was running and the socket was open. -/
structure Serving where
  session : DeviceSession
  contextDone : Bool
  ping : Bool
  heartbeats : Bool
  immediate : List Bytes
  resumeRequests : Option Nat
  durableWake : Bool
  cursorInitialized : Bool
  writerErrors : Bool
  writer : WriterAt
  reader : ReaderAt
  frames : List Frame
  closed : Bool
  retirement : Option SessionRetirement

def Serving.start (credentialVersion : Int) : Serving where
  session := newDeviceSession credentialVersion
  contextDone := false
  ping := false
  heartbeats := false
  immediate := []
  resumeRequests := none
  durableWake := false
  cursorInitialized := false
  writerErrors := false
  writer := .selecting
  reader := .checking
  frames := []
  closed := false
  retirement := none

namespace Serving

/-- The checks of `beginOperation`; an instance that lost its slot is retired. -/
def admits (s : Serving) : Bool := !s.session.cancelled && !s.contextDone

/-- The loop of the writer has not been left. -/
def looping (s : Serving) : Bool :=
  match s.writer with
  | .reporting _ | .returned => false
  | _ => true

/-- Another party retires the instance. -/
def retire (s : Serving) (reason : SessionRetirement) : Serving :=
  { s with
    session := (s.session.retire reason).1
    retirement :=
      if (s.session.retire reason).2 ∧ s.looping ∧ s.closed = false then some reason
      else s.retirement }

/-- The writer goes on after a write. -/
def resumeAt (drains : Bool) : WriterAt := if drains then .draining else .selecting

end Serving

inductive ServeStep : Serving → Serving → Prop
  -- other parties
  | retire (s : Serving) (reason : SessionRetirement) : ServeStep s (s.retire reason)
  | route (s : Serving) (frame : Bytes) : s.session.cancelled = false → s.immediate.length < 16 →
      ServeStep s { s with immediate := s.immediate ++ [frame] }
  | signal (s : Serving) : s.session.cancelled = false → ServeStep s { s with durableWake := true }
  | tick (s : Serving) : ServeStep s { s with ping := true }
  | cancel (s : Serving) : ServeStep s { s with contextDone := true }
  -- the select of the writer
  | selectDone (s : Serving) : s.writer = .selecting → s.contextDone = true →
      ServeStep s { s with writer := .reporting .failed }
  | selectDisconnected (s : Serving) : s.writer = .selecting → s.session.disconnected = true →
      ServeStep s { s with writer := .closing .revoked }
  | selectSuperseded (s : Serving) : s.writer = .selecting → s.session.superseded = true →
      ServeStep s { s with writer := .closing .superseded }
  | selectPing (s : Serving) : s.writer = .selecting → s.ping = true →
      ServeStep s { s with ping := false, writer := .entering .ping false }
  | selectHeartbeat (s : Serving) : s.writer = .selecting → s.heartbeats = true →
      ServeStep s { s with heartbeats := false, writer := .entering .heartbeatResponse false }
  | selectImmediate (s : Serving) (frame : Bytes) (rest : List Bytes) : s.writer = .selecting →
      s.immediate = frame :: rest →
      ServeStep s { s with immediate := rest, writer := .entering (.immediate frame) false }
  | selectResume (s : Serving) (cursor : Nat) : s.writer = .selecting →
      s.resumeRequests = some cursor →
      ServeStep s { s with resumeRequests := none, cursorInitialized := true, writer := .storing }
  | selectWake (s : Serving) : s.writer = .selecting → s.durableWake = true →
      ServeStep s { s with
        durableWake := false
        writer := if s.cursorInitialized then .storing else .selecting }
  -- `writeMessage`
  | enter (s : Serving) (message : ServerMessage) (drains : Bool) :
      s.writer = .entering message drains → s.admits = true →
      ServeStep s { s with writer := .busy message drains }
  | refuse (s : Serving) (message : ServerMessage) (drains : Bool) :
      s.writer = .entering message drains → s.admits = false →
      ServeStep s { s with writer := .reporting .failed }
  | write (s : Serving) (message : ServerMessage) (drains : Bool) :
      s.writer = .busy message drains → s.closed = false →
      ServeStep s { s with
        frames := s.frames ++ [.message message]
        writer := Serving.resumeAt drains }
  | abort (s : Serving) (message : ServerMessage) (drains : Bool) :
      s.writer = .busy message drains → s.admits = false → ServeStep s { s with closed := true }
  | writeClosed (s : Serving) (message : ServerMessage) (drains : Bool) :
      s.writer = .busy message drains → s.closed = true →
      ServeStep s { s with writer := .reporting .failed }
  -- the store and `drainBatch`
  | stored (s : Serving) : s.writer = .storing → s.admits = true →
      ServeStep s { s with writer := .draining }
  | storeFailed (s : Serving) : s.writer = .storing →
      ServeStep s { s with writer := .reporting .failed }
  | deliver (s : Serving) (id : Nat) (envelope : Bytes) : s.writer = .draining →
      ServeStep s { s with writer := .entering (.delivery id envelope) true }
  | caughtUp (s : Serving) (highWater : Nat) : s.writer = .draining →
      ServeStep s { s with writer := .entering (.caughtUp highWater) false }
  | reset (s : Serving) (highWater : Nat) : s.writer = .draining →
      ServeStep s { s with
        cursorInitialized := false
        writer := .entering (.resetRequired highWater) false }
  | readNext (s : Serving) : s.writer = .draining → ServeStep s { s with writer := .storing }
  | drainFailed (s : Serving) : s.writer = .draining →
      ServeStep s { s with writer := .reporting .failed }
  -- the close frame, whose error is ignored, and `reportWriterError`
  | closeFrame (s : Serving) (reason : SessionRetirement) : s.writer = .closing reason →
      ServeStep s { s with
        frames := if s.closed then s.frames else s.frames ++ [.close reason.closeCode]
        writer := .reporting (.retired reason) }
  | report (s : Serving) (error : WriterError) : s.writer = .reporting error →
      ServeStep s { s with
        writerErrors := true, contextDone := true, closed := true, writer := .returned }
  -- the reader
  | check (s : Serving) : s.reader = .checking →
      ServeStep s { s with reader := if s.writerErrors then .leaving else .reading }
  | receive (s : Serving) : s.reader = .reading → s.closed = false →
      ServeStep s { s with reader := .handling }
  | readFailed (s : Serving) : s.reader = .reading → ServeStep s { s with reader := .leaving }
  | handled (s : Serving) : s.reader = .handling → s.admits = true →
      ServeStep s { s with reader := .checking }
  | requestHeartbeat (s : Serving) : s.reader = .handling → s.heartbeats = false →
      ServeStep s { s with heartbeats := true, reader := .checking }
  | requestResume (s : Serving) (cursor : Nat) : s.reader = .handling → s.resumeRequests = none →
      ServeStep s { s with resumeRequests := some cursor, reader := .checking }
  | handleFailed (s : Serving) : s.reader = .handling → ServeStep s { s with reader := .leaving }
  | unregister (s : Serving) : s.reader = .leaving →
      ServeStep s { s with session := (s.session.retire .revoked).1, reader := .unregistered }
  | hangUp (s : Serving) : s.reader = .unregistered →
      ServeStep s { s with contextDone := true, closed := true, reader := .returned }

/-- No other case of the select is ready. -/
def Serving.quiet (s : Serving) : Bool :=
  !s.contextDone && !s.ping && !s.heartbeats && s.immediate.isEmpty && s.resumeRequests.isNone &&
    !s.durableWake

/-- If the instance is retired and the client is still to be told, then nothing else is under way:
the reader waits for the client, and the writer is before the close frame, or in its select with no
other case ready. -/
def Serving.undistracted (s : Serving) : Bool :=
  s.retirement.isNone || s.closed ||
    match s.writer with
    | .selecting => s.quiet && s.reader = .reading
    | .closing _ => s.reader = .reading
    | .reporting (.retired _) => true
    | _ => false

/-! ### The last frame -/

/-- The channel of a retirement is closed. -/
def DeviceSession.signals (s : DeviceSession) : SessionRetirement → Bool
  | .revoked => s.disconnected
  | .superseded => s.superseded

theorem DeviceSession.signals_unique {s : DeviceSession} {reason reason' : SessionRetirement}
    (h : s.signals reason = true) (h' : s.signals reason' = true) : reason' = reason := by
  cases reason <;> cases reason'
  · rfl
  · exact absurd ⟨h, h'⟩ s.not_both
  · exact absurd ⟨h', h⟩ s.not_both
  · rfl

theorem DeviceSession.signals_retire {s : DeviceSession} {reason : SessionRetirement}
    (by_ : SessionRetirement) (h : s.signals reason = true) :
    (s.retire by_).1.signals reason = true := by
  cases reason with
  | revoked => exact (retire_closed s by_).1 h
  | superseded => exact (retire_closed s by_).2 h

theorem DeviceSession.retire_signals {s : DeviceSession} {reason : SessionRetirement}
    (h : (s.retire reason).2 = true) : (s.retire reason).1.signals reason = true := by
  have hfirst : s.retireOnce = false := by
    cases hr : s.retireOnce with
    | false => rfl
    | true =>
      rw [retire_of_retired s reason hr] at h
      cases h
  cases reason <;> simp [DeviceSession.retire, DeviceSession.signals, hfirst]

/-- The writer is before the close frame of the retirement, and once it has left its loop, or the
socket is closed, that was the last frame. -/
structure Serving.Telling (s : Serving) : Prop where
  signalled : ∀ reason, s.retirement = some reason → s.session.signals reason = true
  closing : ∀ reason, s.writer = .closing reason → s.session.signals reason = true
  told : ∀ reason, s.retirement = some reason → s.closed = true ∨ s.looping = false →
    s.frames.getLast? = some (.close reason.closeCode)

section Telling

variable {s s' : Serving}

/-- Where the writer stands while the client is still to be told. -/
theorem Serving.undistracted_cases {reason : SessionRetirement} (hcalm : s.undistracted = true)
    (hretired : s.retirement = some reason) (hopen : s.closed = false) :
    (s.writer = .selecting ∧ s.quiet = true ∧ s.reader = .reading) ∨
      (∃ r, s.writer = .closing r) ∧ s.reader = .reading ∨
      ∃ r, s.writer = .reporting (.retired r) := by
  simp only [Serving.undistracted, hretired, hopen, Option.isNone_some, Bool.false_or] at hcalm
  split at hcalm
  · rename_i hwriter
    exact Or.inl ⟨hwriter, by simpa using hcalm⟩
  · rename_i r hwriter
    exact Or.inr (Or.inl ⟨⟨r, hwriter⟩, by simpa using hcalm⟩)
  · rename_i r hwriter
    exact Or.inr (Or.inr ⟨r, hwriter⟩)
  · cases hcalm

/-- The writer moves, and does not leave its loop while the client is still to be told. -/
theorem Serving.Telling.moves (h : s.Telling) (hsession : s'.session = s.session)
    (hretirement : s'.retirement = s.retirement) (hframes : s'.frames = s.frames)
    (hclosed : s'.closed = s.closed)
    (hclosing : ∀ reason, s'.writer = .closing reason → s.session.signals reason = true)
    (hleft : ∀ reason, s.retirement = some reason → s.closed = false → s'.looping = true) :
    s'.Telling := by
  refine ⟨?_, ?_, fun reason hretired hended => ?_⟩
  · rw [hretirement, hsession]
    exact h.signalled
  · rw [hsession]
    exact hclosing
  · rw [hretirement] at hretired
    rw [hframes]
    rw [hclosed] at hended
    cases hopen : s.closed with
    | true => exact h.told reason hretired (Or.inl hopen)
    | false => simp [hopen, hleft reason hretired hopen] at hended

/-- While the client is still to be told, the writer is nowhere else. -/
theorem Serving.Telling.elsewhere {w : WriterAt} {reason : SessionRetirement}
    (hcalm : s.undistracted = true) (hwriter : s.writer = w) (hselecting : w ≠ .selecting)
    (hclosing : ∀ r, w ≠ .closing r) (hreporting : ∀ r, w ≠ .reporting (.retired r))
    (hretired : s.retirement = some reason) : s.closed ≠ false := by
  intro hopen
  rcases Serving.undistracted_cases hcalm hretired hopen with
    ⟨hw, -⟩ | ⟨⟨r, hw⟩, -⟩ | ⟨r, hw⟩ <;> rw [hwriter] at hw
  · exact hselecting hw
  · exact hclosing r hw
  · exact hreporting r hw

theorem Serving.Telling.retire (h : s.Telling) (reason : SessionRetirement) :
    (s.retire reason).Telling := by
  have hclosing : ∀ r, s.writer = .closing r → (s.session.retire reason).1.signals r = true :=
    fun r hr => DeviceSession.signals_retire _ (h.closing r hr)
  unfold Serving.retire
  split
  · rename_i hfirst
    refine ⟨fun r hr => ?_, hclosing, fun r _ hended => ?_⟩
    · cases hr
      exact DeviceSession.retire_signals hfirst.1
    · have hlooping : s.looping = true := hfirst.2.1
      rcases hended with hclosed | hleft
      · have hboth := hclosed.symm.trans hfirst.2.2
        cases hboth
      · have hboth := hleft.symm.trans hlooping
        cases hboth
  · exact ⟨fun r hr => DeviceSession.signals_retire _ (h.signalled r hr), hclosing, h.told⟩

/-- Every step of an undistracted connection keeps this. -/
theorem ServeStep.telling (hstep : ServeStep s s') (hcalm : s.undistracted = true)
    (h : s.Telling) : s'.Telling := by
  cases hstep with
  | retire reason => exact h.retire reason
  | route | signal | tick | cancel | check | receive | readFailed | handled | requestHeartbeat
  | requestResume | handleFailed => exact ⟨h.signalled, h.closing, h.told⟩
  | selectDone hwriter hdone =>
    refine h.moves rfl rfl rfl rfl nofun fun reason hretired hopen => ?_
    rcases Serving.undistracted_cases hcalm hretired hopen with
      ⟨-, hquiet, -⟩ | ⟨⟨r, hw⟩, -⟩ | ⟨r, hw⟩
    · simp [Serving.quiet, hdone] at hquiet
    · rw [hwriter] at hw
      cases hw
    · rw [hwriter] at hw
      cases hw
  | selectDisconnected hwriter hsignal =>
    refine h.moves rfl rfl rfl rfl (fun reason hclosing => ?_) fun _ _ _ => rfl
    cases hclosing
    exact hsignal
  | selectSuperseded hwriter hsignal =>
    refine h.moves rfl rfl rfl rfl (fun reason hclosing => ?_) fun _ _ _ => rfl
    cases hclosing
    exact hsignal
  | selectPing | selectHeartbeat | selectImmediate | selectResume | enter | stored | deliver
  | caughtUp | reset | readNext =>
    exact h.moves rfl rfl rfl rfl nofun fun _ _ _ => rfl
  | selectWake hwriter hwake =>
    refine h.moves rfl rfl rfl rfl (fun reason hclosing => ?_) fun _ _ _ => ?_
    · cases hi : s.cursorInitialized <;> simp [hi] at hclosing
    · cases hi : s.cursorInitialized <;> simp [Serving.looping]
  | refuse _ _ hwriter | writeClosed _ _ hwriter | storeFailed hwriter | drainFailed hwriter =>
    exact h.moves rfl rfl rfl rfl nofun fun reason hretired hopen =>
      absurd hopen (Serving.Telling.elsewhere hcalm hwriter nofun nofun nofun hretired)
  | write message drains hwriter hopen =>
    have hretired : ∀ reason, s.retirement ≠ some reason := fun reason hretired =>
      Serving.Telling.elsewhere hcalm hwriter nofun nofun nofun hretired hopen
    refine ⟨h.signalled, fun reason hclosing => ?_, fun reason hr => absurd hr (hretired reason)⟩
    cases drains <;> cases hclosing
  | abort message drains hwriter =>
    refine ⟨h.signalled, h.closing, fun reason hretired _ => ?_⟩
    cases hopen : s.closed with
    | true => exact h.told reason hretired (Or.inl hopen)
    | false =>
      exact absurd hopen (Serving.Telling.elsewhere hcalm hwriter nofun nofun nofun hretired)
  | closeFrame reason hwriter =>
    refine ⟨h.signalled, nofun, fun r hretired _ => ?_⟩
    cases hopen : s.closed with
    | true => simpa [hopen] using h.told r hretired (Or.inl hopen)
    | false =>
      obtain rfl := DeviceSession.signals_unique (h.closing reason hwriter) (h.signalled r hretired)
      simp
  | report error hwriter =>
    exact ⟨h.signalled, nofun, fun reason hretired _ =>
      h.told reason hretired (Or.inr (by simp [Serving.looping, hwriter]))⟩
  | unregister hreader =>
    exact ⟨fun r hr => DeviceSession.signals_retire _ (h.signalled r hr),
      fun r hr => DeviceSession.signals_retire _ (h.closing r hr), h.told⟩
  | hangUp hreader =>
    refine ⟨h.signalled, h.closing, fun reason hretired _ => ?_⟩
    cases hopen : s.closed with
    | true => exact h.told reason hretired (Or.inl hopen)
    | false =>
      rcases Serving.undistracted_cases hcalm hretired hopen with
        ⟨-, -, hr⟩ | ⟨-, hr⟩ | ⟨r, hw⟩
      · rw [hreader] at hr
        cases hr
      · rw [hreader] at hr
        cases hr
      · exact h.told reason hretired (Or.inr (by simp [Serving.looping, hw]))

theorem Serving.start_telling (credentialVersion : Int) : (Serving.start credentialVersion).Telling :=
  ⟨nofun, nofun, nofun⟩

end Telling

/-- The connection may come to `s` by steps each of which finds it in a state that `allowed`
admits. -/
def Serving.Reaches (allowed : Serving → Prop) (credentialVersion : Int) (s : Serving) : Prop :=
  Relation.ReflTransGen (fun s s' => ServeStep s s' ∧ allowed s) (.start credentialVersion) s

theorem Serving.Reaches.telling {credentialVersion : Int} {s : Serving}
    (h : s.Reaches (·.undistracted = true) credentialVersion) : s.Telling := by
  induction h with
  | refl => exact Serving.start_telling credentialVersion
  | tail _ hstep ih => exact hstep.1.telling hstep.2 ih

/-- In every run in which nothing else is under way while the client is still to be told: when the
socket of a retired instance is closed, the last frame on it was the close frame of the
retirement. -/
theorem retirement_is_told (credentialVersion : Int) (s : Serving)
    (h : s.Reaches (·.undistracted = true) credentialVersion) (reason : SessionRetirement)
    (hretired : s.retirement = some reason) (hclosed : s.closed = true) :
    s.frames.getLast? = some (.close reason.closeCode) :=
  h.telling.told reason hretired (Or.inl hclosed)

/-- An idle connection is superseded. -/
theorem retirement_is_told_idle : ∃ s : Serving, s.Reaches (·.undistracted = true) 1 ∧
    s.retirement = some .superseded ∧ s.closed = true ∧
    s.frames.getLast? = some (.close closeNormalClosure) := by
  have started : (Serving.start 1).Reaches (·.undistracted = true) 1 := .refl
  have reading := started.tail ⟨.check _ rfl, rfl⟩
  have retired := reading.tail ⟨.retire _ .superseded, rfl⟩
  have told := (retired.tail ⟨.selectSuperseded _ rfl rfl, rfl⟩).tail ⟨.closeFrame _ _ rfl, rfl⟩
  have closed := told.tail ⟨.report _ _ rfl, rfl⟩
  exact ⟨_, closed, rfl, rfl, retirement_is_told 1 _ closed .superseded rfl rfl⟩

/-- A heartbeat of the client waits in its channel when the instance is revoked, and the select takes
it first: the response is refused, and the socket is closed without a close frame. -/
theorem heartbeat_hides_revocation : ∃ s : Serving, s.Reaches (fun _ => True) 1 ∧
    s.retirement = some .revoked ∧ s.closed = true ∧ s.frames = [] := by
  have started : (Serving.start 1).Reaches (fun _ => True) 1 := .refl
  have requested := ((started.tail ⟨.check _ rfl, trivial⟩).tail
    ⟨.receive _ rfl rfl, trivial⟩).tail ⟨.requestHeartbeat _ rfl rfl, trivial⟩
  have revoked := requested.tail ⟨.retire _ .revoked, trivial⟩
  have refused := (revoked.tail ⟨.selectHeartbeat _ rfl rfl, trivial⟩).tail
    ⟨.refuse _ _ _ rfl rfl, trivial⟩
  have closed := refused.tail ⟨.report _ _ rfl, trivial⟩
  exact ⟨_, closed, rfl, rfl, rfl⟩

end SevenMirror.Relay
