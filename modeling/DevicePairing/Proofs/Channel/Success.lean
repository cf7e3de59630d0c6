import DevicePairing.Proofs.Channel.Soundness

/-!
# Handshakes that go on

What a handler comes to when everyone it asks agrees: the engine answers, the store takes what it is
given, the stream takes what is written. For each handler one equation says which turn is left. These
equations are for runs in which nothing goes wrong; what may come of a handler otherwise is in
`Association.Stored` and its like.
-/

namespace DevicePairing

variable {ε σ τ : Type} {S : Setting ε σ τ}

/-! ## Calls -/

namespace Channel

variable {c : Channel ε σ τ} {payload : Bytes} {t : Turn ε σ τ}

/-- A frame that is not sealed goes to the handler as it is. -/
theorem call_plain (phase : c.phase = .handshaking)
    (handled : Turn.handle S payload c.turn = (.ok (), t)) :
    c.call S (.arrived ⟨none, false, payload⟩ .handshake) =
      (⟨.ok (), t.acts, t.events⟩, t.toChannel) := by
  simp [call, Turn.takeHandshake, phase, Phase.isHandshaking, Turn.attempt, handled]

/-- A sealed frame is opened first. -/
theorem call_sealed {key : SessionKey} {plain : Bytes} (phase : c.phase = .handshaking)
    (hkey : c.key = some key) (opened : key.decrypt S.suite payload = .ok plain)
    (handled : Turn.handle S plain c.turn = (.ok (), t)) :
    c.call S (.arrived ⟨none, true, payload⟩ .handshake) =
      (⟨.ok (), t.acts, t.events⟩, t.toChannel) := by
  simp [call, Turn.takeHandshake, phase, hkey, opened, Phase.isHandshaking, Turn.attempt, handled]

/-- The user may accept the code of an association once it is shown. -/
theorem call_accept {verification : Verification} {pendingKey : Option SessionKey}
    {device : Option Uuid} (phase : c.phase = .handshaking)
    (kind : c.kind = .association verification pendingKey device)
    (stage : c.stage = .verificationNeeded) (handled : Association.accept S c.turn = (.ok (), t)) :
    c.call S .accept = (⟨.ok (), t.acts, t.events⟩, t.toChannel) := by
  simp [call, Turn.accept, phase, kind, stage, Phase.isHandshaking, Turn.attempt, handled]

end Channel

/-! ## Which handler a frame goes to -/

namespace Turn

variable {t : Turn ε σ τ} (payload : Bytes)

/-- The frames of an association are its own affair. -/
theorem handle_association {verification : Verification} {pendingKey : Option SessionKey}
    {device : Option Uuid} (kind : t.kind = .association verification pendingKey device) :
    handle S payload t = Association.handle S payload t := by
  simp [handle, Work.bind_apply, Work.get_apply, kind]

/-- So are those of a return. -/
theorem handle_reconnection {device : Uuid} {expected : Option Bytes} {verified : Bool}
    (kind : t.kind = .reconnection device expected verified) :
    handle S payload t = Reconnection.handle S device expected verified payload t := by
  simp [handle, Work.bind_apply, Work.get_apply, kind]

end Turn

/-! ## Association -/

namespace Association

/-- The first frame is answered. -/
theorem init_eq {t : Turn ε σ τ} {payload next : Bytes} {reply : Reply} {engine : ε} {tape : Tape}
    {done : List StreamAct} {stream : τ}
    (asked : S.engine.answer (.init payload) t.engine t.tape = (.ok reply, engine, tape))
    (admitted : t.stage.admits reply.stage = true) (hnext : reply.next = some next)
    (written : S.stream.write ⟨none, false, next⟩ .handshake t.stream = (.ok (), done, stream)) :
    init S payload t = (.ok (),
      { t with
        stage := reply.stage
        engine := engine
        tape := tape
        stream := stream
        acts := t.acts ++ [.asked (.init payload) (.ok reply),
          .wrote ⟨none, false, next⟩ .handshake done (.ok ())] }) := by
  simp [init, Work.bind_apply, Work.ask, asked, Turn.note, Work.advance, admitted, hnext,
    Work.require, Work.sendPlain, Turn.write, written]

/-- The second frame is answered by a code that is shown. -/
theorem proceed_eq {t : Turn ε σ τ} {payload : Bytes} {reply : Reply} {code : String}
    {listener : ListenerId} {engine : ε} {tape : Tape} {pendingKey : Option SessionKey}
    {device : Option Uuid} (kind : t.kind = .association .visual pendingKey device)
    (asked : S.engine.answer (.proceed payload) t.engine t.tape = (.ok reply, engine, tape))
    (awaiting : reply.stage = .verificationNeeded) (hcode : reply.code = some code)
    (listening : t.codeListener = some listener)
    (admitted : t.stage.admits .verificationNeeded = true) :
    proceed S payload t = (.ok (),
      { t with
        stage := .verificationNeeded
        engine := engine
        tape := tape
        acts := t.acts ++ [.asked (.proceed payload) (.ok reply)]
        events := t.events ++ [.showCode listener code] }) := by
  simp [proceed, Work.bind_apply, Work.ask, asked, Turn.note, Work.get_apply, kind, showCode,
    awaiting, hcode, Work.require, Work.pure_apply, listening, Work.advance, admitted, Work.announce,
    Turn.announce]

/-- Where the frame can be sealed and the stream takes it, it is written and noted. -/
theorem sendSealed_eq {t : Turn ε σ τ} {frame sealed : Bytes} {key : SessionKey} {tape : Tape}
    {done : List StreamAct} {stream : τ} (hkey : t.key = some key)
    (sealing : key.encrypt S.suite frame t.tape = (.ok sealed, tape))
    (written : S.stream.write ⟨none, true, sealed⟩ .handshake t.stream = (.ok (), done, stream)) :
    Work.sendSealed S frame t = (.ok (),
      { t with
        tape := tape
        stream := stream
        acts := t.acts ++ [.wrote ⟨none, true, sealed⟩ .handshake done (.ok ())] }) := by
  simp [Work.sendSealed, hkey, sealing, Turn.write, written, Turn.note]

/-- The code is accepted, and our identifier is sent under the key agreed on. -/
theorem accept_eq {t : Turn ε σ τ} {verification : Verification} {pendingKey : Option SessionKey}
    {device : Option Uuid} {reply : Reply} {key : SessionKey} {sealed : Bytes} {engine : ε}
    {tape tape' : Tape} {done : List StreamAct} {stream : τ}
    (kind : t.kind = .association verification pendingKey device)
    (asked : S.engine.answer .verify t.engine t.tape = (.ok reply, engine, tape))
    (finished : reply.stage = .finished) (given : reply.key = some key) (fresh : t.key = none)
    (sealing : key.encrypt S.suite (S.store.uniqueId t.store).toBytes tape = (.ok sealed, tape'))
    (written : S.stream.write ⟨none, true, sealed⟩ .handshake t.stream = (.ok (), done, stream)) :
    accept S t = (.ok (),
      { t with
        kind := .association verification (some key) device
        stage := .finished
        key := some key
        engine := engine
        tape := tape'
        stream := stream
        acts := t.acts ++ [.asked .verify (.ok reply),
          .wrote ⟨none, true, sealed⟩ .handshake done (.ok ())] }) := by
  have hask : Work.ask S .verify t = (.ok reply,
      { t with engine, tape, acts := t.acts ++ [.asked .verify (.ok reply)] }) := by
    simp [Work.ask, asked, Turn.note]
  have hkeyed : keyed S key t = { t with
      kind := .association verification (some key) device
      stage := .finished
      key := some key
      engine := engine
      tape := tape
      acts := t.acts ++ [.asked .verify (.ok reply)] } := by
    simp [keyed, hask, kind]
  rw [accept_of_key hask finished given fresh, hkeyed]
  exact (sendSealed_eq (S := S) (t := { t with
      kind := .association verification (some key) device
      stage := .finished
      key := some key
      engine := engine
      tape := tape
      acts := t.acts ++ [.asked .verify (.ok reply)] }) rfl sealing written).trans (by simp)

/-- The last frame is stored. -/
theorem final_eq {t : Turn ε σ τ} {payload : Bytes} {verification : Verification}
    {key : SessionKey} {former : Option Uuid} {device : Uuid} {s s' : σ} {tape tape' : Tape}
    (phase : t.phase = .handshaking)
    (kind : t.kind = .association verification (some key) former)
    (named : deviceId? payload = some device)
    (keyKept : S.store.saveKey device key.toBytes t.store t.tape = (.ok (), s, tape))
    (secretKept : S.store.saveSecret device (payload.drop deviceIdSize) s tape
      = (.ok (), s', tape')) :
    final S payload t = (.ok (),
      { t with
        kind := .association verification none (some device)
        phase := .established
        store := s'
        tape := tape'
        acts := t.acts ++ [.keySaved device key.toBytes (.ok ()),
          .secretSaved device (payload.drop deviceIdSize) (.ok ())]
        events := t.events ++ [.deviceId device, .established] }) := by
  simp [final, Work.bind_apply, named, Work.require, Work.pure_apply, Work.get_apply, kind,
    Work.setKind, Work.saveKey, keyKept, Work.saveSecret, secretKept, Turn.note, Work.announce,
    Turn.announce, Work.establish, phase, Phase.transition]

end Association

/-! ## Reconnection -/

namespace Reconnection

/-- The peer answers our challenge, and we answer its own. -/
theorem verify_eq (expected : Bytes) {t : Turn ε σ τ} {device : Uuid} {challenge : Bytes}
    {proof : Block 32} {s : σ} {done : List StreamAct} {stream : τ}
    (hashed : S.store.hash S.suite device challenge t.store = (.ok proof, s))
    (written : S.stream.write ⟨none, false, proof.val⟩ .handshake t.stream =
      (.ok (), done, stream)) :
    verify S device (some expected) (expected ++ challenge) t = (.ok (),
      { t with
        kind := .reconnection device (some expected) true
        store := s
        stream := stream
        acts := t.acts ++ [.hashed device challenge (.ok proof),
          .wrote ⟨none, false, proof.val⟩ .handshake done (.ok ())] }) := by
  simp [verify, Work.bind_apply, Work.require, Work.pure_apply, Work.hash, hashed, Turn.note,
    Work.sendPlain, Turn.write, written, Work.setKind]

/-- The second frame is taken in. -/
theorem proceed_eq {t : Turn ε σ τ} {payload : Bytes} {reply : Reply} {engine : ε} {tape : Tape}
    (asked : S.engine.answer (.proceed payload) t.engine t.tape = (.ok reply, engine, tape))
    (admitted : t.stage.admits reply.stage = true) (hnext : reply.next = none) :
    proceed S payload t = (.ok (),
      { t with
        stage := reply.stage
        engine := engine
        tape := tape
        acts := t.acts ++ [.asked (.proceed payload) (.ok reply)] }) := by
  simp [proceed, Work.bind_apply, Work.ask, asked, Turn.note, Work.advance, admitted, hnext,
    Work.pure_apply]

/-- The peer proves that it holds the old key, and the new one takes its place. -/
theorem resume_eq {t : Turn ε σ τ} {device : Uuid} {payload previous next : Bytes} {reply : Reply}
    {key : SessionKey} {engine : ε} {s s' : σ} {tape tape' : Tape} {done : List StreamAct}
    {stream : τ} (phase : t.phase = .handshaking) (fresh : t.key = none)
    (read : S.store.key device t.store = (.ok (some previous), s))
    (asked : S.engine.answer (.resume payload previous) t.engine t.tape =
      (.ok reply, engine, tape))
    (finished : reply.stage = .finished) (given : reply.key = some key)
    (hnext : reply.next = some next)
    (kept : S.store.saveKey device key.toBytes s tape = (.ok (), s', tape'))
    (written : S.stream.write ⟨none, false, next⟩ .handshake t.stream = (.ok (), done, stream)) :
    resume S device payload t = (.ok (),
      { t with
        stage := .finished
        phase := .established
        key := some key
        engine := engine
        store := s'
        tape := tape'
        stream := stream
        acts := t.acts ++ [.keyRead device (.ok (some previous)),
          .asked (.resume payload previous) (.ok reply), .keySaved device key.toBytes (.ok ()),
          .wrote ⟨none, false, next⟩ .handshake done (.ok ())]
        events := t.events ++ [.established] }) := by
  simp [resume, Work.bind_apply, Work.readKey, read, Work.require, Work.pure_apply, Work.ask, asked,
    finished, given, hnext, Work.saveKey, kept, Work.advance_finished, Work.setKey, fresh,
    Work.sendPlain, Turn.write, written, Turn.note, Work.establish, phase, Phase.transition,
    Turn.announce]

end Reconnection

end DevicePairing
