import DevicePairing.Proofs.Channel.Constancy
import DevicePairing.Proofs.Channel.Discipline
import DevicePairing.Proofs.Crypto.Cipher

/-!
# Messages of the application

The messages that the owners of two channels send each other are sealed under the key on which the channels
have agreed. `Channel.Shielded` says what that means for one channel in all of its runs: every frame of the
application that it writes carries the message that its owner is sending at that moment, and every message
that it delivers was carried by the frame that has come in. Two channels that hold one key therefore pass on
whatever is sent, in order and each message once (`Channel.shielded_and_passed_on`).

Nothing but a call to send and an arriving frame of the application has a part in this. No step of a
handshake writes or delivers a message (`Turn.dependsOn_traffic`), and `Channel.Conveyed` lists what a call
comes to; the rest is read off the list. Along a run the frames that the stream took say what was sent
(`Channel.revealed_taken_run`), and what is delivered is what the frames that arrive say as long as the key is
there (`Channel.delivered_run`).
-/

namespace DevicePairing

/-! ## Frames and messages -/

namespace DeviceMessage

/-- The message without the flag that says whether it is sealed. -/
def cleared (m : DeviceMessage) : DeviceMessage := m.withPayload false m.payload

/-- A message without the flag is cleared already. -/
theorem cleared_of_unflagged {m : DeviceMessage} (h : m.encrypted = false) : m.cleared = m := by
  obtain ⟨recipient, encrypted, payload⟩ := m
  cases h
  rfl

/-- A frame carries a message: it is flagged as sealed, is meant for the same device, and opens under the
key to the payload. -/
structure Carries (suite : Suite) (key : SessionKey) (frame m : DeviceMessage) : Prop where
  /-- The frame is flagged. -/
  encrypted : frame.encrypted = true
  /-- The recipient is the same. -/
  recipient : frame.recipient = m.recipient
  /-- What is sealed in the frame is the payload. -/
  opens : key.decrypt suite frame.payload = .ok m.payload

/-- What a frame of the application says to those who hold the key. -/
def revealed? (suite : Suite) (key : SessionKey) (frame : DeviceMessage) : Option DeviceMessage :=
  if frame.encrypted then
    match key.decrypt suite frame.payload with
    | .ok plain => some (frame.withPayload false plain)
    | .error _ => none
  else none

variable {suite : Suite} {key : SessionKey} {frame m : DeviceMessage}

/-- A frame without the flag says nothing. -/
theorem revealed?_of_unflagged (h : frame.encrypted = false) : frame.revealed? suite key = none := by
  unfold revealed?
  rw [h]
  rfl

/-- A frame with the flag says what it opens to. -/
theorem revealed?_of_sealed (h : frame.encrypted = true) {plain : Bytes}
    (opens : key.decrypt suite frame.payload = .ok plain) :
    frame.revealed? suite key = some (frame.withPayload false plain) := by
  unfold revealed?
  rw [if_pos h, opens]

/-- A frame that does not open says nothing. -/
theorem revealed?_of_unreadable {e : CryptoError} (h : key.decrypt suite frame.payload = .error e) :
    frame.revealed? suite key = none := by
  unfold revealed?
  rw [h]
  split <;> rfl

/-- What a frame carries is what it says. -/
theorem Carries.revealed (h : frame.Carries suite key m) :
    frame.revealed? suite key = some m.cleared := by
  rw [revealed?_of_sealed h.encrypted h.opens]
  unfold cleared withPayload
  rw [h.recipient]

/-- What a frame says is a message that it carries. -/
theorem carries_of_revealed (h : frame.revealed? suite key = some m) :
    frame.Carries suite key m ∧ m.encrypted = false := by
  unfold revealed? at h
  split at h
  next hsealed =>
    split at h
    next plain opens =>
      cases h
      exact ⟨⟨hsealed, rfl, opens⟩, rfl⟩
    · cases h
  · cases h

/-- A message that is sealed is carried by the frame. -/
theorem carries_of_encrypt (opens : suite.Opens) {sealed : Bytes} {tape : Tape}
    (encrypt : (key.encrypt suite m.payload tape).1 = .ok sealed) :
    (m.withPayload true sealed).Carries suite key m :=
  ⟨rfl, rfl, SessionKey.decrypt_encrypt opens encrypt⟩

end DeviceMessage

/-- The frame of the application that an act writes, with the answer of the stream. -/
def Act.client? : Act → Option (DeviceMessage × Except StreamError Unit)
  | .wrote m .client _ answer => some (m, answer)
  | _ => none

/-- The message of the application that an event delivers. -/
def Event.message? : Event → Option DeviceMessage
  | .message m => some m
  | _ => none

/-- Of events that do not tell of traffic none delivers a message. -/
theorem Event.message?_of_not_isTraffic {e : Event} (h : e.isTraffic = false) :
    e.message? = none := by
  cases e <;> first | rfl | cases h

variable {ε σ τ : Type} {S : Setting ε σ τ}

/-! ## What a handshake writes and delivers -/

namespace Turn

/-- The frames of the application that were written in a turn so far, and the messages delivered. -/
def traffic (t : Turn ε σ τ) : List (DeviceMessage × Except StreamError Unit) × List DeviceMessage :=
  (t.acts.filterMap Act.client?, t.events.filterMap Event.message?)

/-- An act that writes no frame of the application leaves the traffic as it is. -/
theorem traffic_note {a : Act} (h : a.client? = none) (t : Turn ε σ τ) :
    (t.note a).traffic = t.traffic := by
  simp [traffic, note, h]

/-- An event that delivers no message does, too. -/
theorem traffic_announce {e : Event} (h : e.message? = none) (t : Turn ε σ τ) :
    (t.announce e).traffic = t.traffic := by
  simp [traffic, announce, h]

/-- To give up leaves no traffic. -/
@[simp] theorem traffic_fail (t : Turn ε σ τ) (code : ErrorCode) :
    (t.fail code).traffic = t.traffic := by
  unfold fail
  split
  · exact traffic_announce rfl _
  · rfl

/-- A frame of the application that is written is noted with the answer to it. -/
theorem traffic_write (m : DeviceMessage) (t : Turn ε σ τ) :
    (t.write S m .client).2.traffic =
      (t.traffic.1 ++ [(m, (t.write S m .client).1)], t.traffic.2) := by
  simp [traffic, write, note, Act.client?]

/-- However a step ends, this leaves no traffic. -/
theorem traffic_settle (r : Except ErrorCode Unit) (t : Turn ε σ τ) :
    (t.settle r).traffic = t.traffic := by
  cases r with
  | ok _ => rfl
  | error code => exact t.traffic_fail code

/-- Nothing that steps of a handshake do writes a frame of the application or delivers a message. -/
theorem dependsOn_traffic : DependsOn S [] traffic := by
  rintro x t t' h -
  cases h with
  | tell apart t => exact traffic_announce (Event.message?_of_not_isTraffic apart) t
  | establish _ => exact traffic_announce rfl _
  | stage _ | key _ _ | kind _ _ | draw _ _ => rfl
  | _ => exact traffic_note rfl _

end Turn

/-! ## What a call comes to -/

/-- The frames of the application that were written, and the messages delivered. -/
def Outcome.traffic (o : Outcome) :
    List (DeviceMessage × Except StreamError Unit) × List DeviceMessage :=
  (o.acts.filterMap Act.client?, o.events.filterMap Event.message?)

namespace Channel

variable (S) in
/-- What a call comes to for the messages of the application: how it is answered, what is written and what
is delivered. -/
inductive Conveyed (c : Channel ε σ τ) :
    Call → Except ChannelError Unit →
      List (DeviceMessage × Except StreamError Unit) × List DeviceMessage → Prop where
  /-- Nothing is written or delivered. A message of the owner is then refused, and a frame that has come in
  says nothing under the key. -/
  | nothing {i : Call} {answer : Except ChannelError Unit}
    (unsent : ∀ m, i = .send m → answer ≠ .ok ())
    (unread : ∀ frame key, i = .arrived frame .client → c.phase.isTerminal = false →
      c.key = some key → frame.revealed? S.suite key = none) :
    Conveyed c i answer ([], [])
  /-- A message of the owner is written, in a frame that carries it under the key. The stream may still
  refuse the frame, and then the owner is told. -/
  | sent {m frame : DeviceMessage} {key : SessionKey} {written : Except StreamError Unit}
    {answer : Except ChannelError Unit} (keyed : c.key = some key)
    (carries : frame.Carries S.suite key m) (answered : answer = .ok () ↔ written = .ok ()) :
    Conveyed c (.send m) answer ([(frame, written)], [])
  /-- What a frame of the peer says under the key is delivered. -/
  | delivered {m frame : DeviceMessage} {key : SessionKey} {answer : Except ChannelError Unit}
    (keyed : c.key = some key) (revealed : frame.revealed? S.suite key = some m) :
    Conveyed c (.arrived frame .client) answer ([], [m])

/-- To handle a frame of the handshake leaves no traffic. -/
theorem traffic_handle (payload : Bytes) (c : Channel ε σ τ) :
    (c.turn.attempt (Turn.handle S payload)).traffic = ([], []) := by
  obtain ⟨w, hstep, hw⟩ := setsOff_handle (S := S) c payload
  rw [Turn.attempt_eq_settle, Turn.traffic_settle, hw]
  exact (footprint_setsOff hstep).leaves Turn.dependsOn_traffic (fun _ _ => List.not_mem_nil) c.turn

/-- No frame of the handshake leaves traffic, whether it is handled, refused or passed over. -/
theorem traffic_takeHandshake (m : DeviceMessage) (c : Channel ε σ τ) :
    (c.turn.takeHandshake S m).traffic = ([], []) := by
  have hrefused : ∀ {e code}, ((c.turn.announce (.messageError e)).fail code).traffic = ([], []) := by
    intro e code
    rw [Turn.traffic_fail]
    exact Turn.traffic_announce rfl _
  unfold Turn.takeHandshake
  split
  · split
    · split
      · exact hrefused
      · split
        · exact traffic_handle _ c
        · exact hrefused
    · exact traffic_handle _ c
  · rfl

/-- Nor does the acceptance of a code. -/
theorem traffic_accept (c : Channel ε σ τ) : (c.turn.accept S).traffic = ([], []) := by
  have haccepted : (c.turn.attempt (Association.accept S)).traffic = ([], []) := by
    rw [Turn.attempt_eq_settle, Turn.traffic_settle]
    exact Association.asksFirst_accept.footprint.leaves Turn.dependsOn_traffic (by decide) c.turn
  unfold Turn.accept
  split
  · split
    · exact haccepted
    · exact haccepted
    · exact Turn.traffic_fail _ _
  · rfl

/-- A frame of the application is delivered if it says something under the key, and not otherwise. -/
theorem conveyed_takeMessage (frame : DeviceMessage) (answer : Except ChannelError Unit)
    (c : Channel ε σ τ) :
    Conveyed S c (.arrived frame .client) answer (c.turn.takeMessage S frame).traffic := by
  have hrefused : ∀ {e : ChannelError}, (∀ key, c.phase.isTerminal = false → c.key = some key →
      frame.revealed? S.suite key = none) →
      Conveyed S c (.arrived frame .client) answer (c.turn.announce (.messageError e)).traffic := by
    intro e unread
    rw [Turn.traffic_announce rfl]
    refine .nothing (fun _ h => nomatch h) ?_
    rintro _ key ⟨⟩
    exact unread key
  unfold Turn.takeMessage
  rcases hphase : c.turn.phase with _ | _ | code | _
  case closed =>
    refine .nothing (fun _ h => nomatch h) fun _ _ _ hopen => ?_
    rw [show c.phase = .closed from hphase] at hopen
    cases hopen
  case failed =>
    refine hrefused fun _ hopen => ?_
    rw [show c.phase = .failed code from hphase] at hopen
    cases hopen
  -- while the channel is neither failed nor closed, the flag and the key decide
  all_goals
    dsimp only
    split
    · next hsealed =>
      split
      · next hkey => exact hrefused fun _ _ hkeyed => nomatch hkeyed.symm.trans hkey
      · next key hkey =>
        split
        · next plain hplain =>
          exact .delivered hkey (DeviceMessage.revealed?_of_sealed hsealed hplain)
        · next e hplain =>
          refine hrefused fun key' _ hkeyed => ?_
          cases hkeyed.symm.trans hkey
          exact DeviceMessage.revealed?_of_unreadable hplain
    · next hplain =>
      exact hrefused fun _ _ _ => DeviceMessage.revealed?_of_unflagged (Bool.eq_false_iff.2 hplain)

/-- A message of the owner is written in a frame that carries it, or the owner is told that it was not sent. -/
theorem conveyed_send (opens : S.suite.Opens) (m : DeviceMessage) (c : Channel ε σ τ) :
    Conveyed S c (.send m) (c.turn.send S m).1 (c.turn.send S m).2.traffic := by
  have hrefused : ∀ {t : Turn ε σ τ} {e : ChannelError}, t.traffic = ([], []) →
      Conveyed S c (.send m) (.error e) t.traffic := by
    intro t e htraffic
    rw [htraffic]
    exact .nothing (fun _ _ => nofun) fun _ _ h => nomatch h
  unfold Turn.send
  split
  · exact hrefused rfl
  · exact hrefused rfl
  split
  · exact hrefused (Turn.traffic_fail _ _)
  next key hkey =>
    rcases hsealed : key.encrypt S.suite m.payload c.turn.tape with ⟨e | sealed, tape⟩
    · exact hrefused rfl
    · have hcarries : (m.withPayload true sealed).Carries S.suite key m :=
        DeviceMessage.carries_of_encrypt opens (congrArg Prod.fst hsealed)
      have htraffic := Turn.traffic_write (S := S) (m.withPayload true sealed) { c.turn with tape }
      dsimp only
      rcases hw : ({ c.turn with tape } : Turn ε σ τ).write S (m.withPayload true sealed) .client with
        ⟨e | _, t⟩
      all_goals
        rw [hw] at htraffic
        dsimp only at htraffic ⊢
        rw [htraffic]
      · exact .sent hkey hcarries (iff_of_false nofun nofun)
      · exact .sent hkey hcarries (iff_of_true rfl rfl)

/-- Every call comes to one of the three things listed. -/
theorem conveyed_call (opens : S.suite.Opens) (i : Call) (c : Channel ε σ τ) :
    Conveyed S c i (c.call S i).1.answer (c.call S i).1.traffic := by
  have hnothing : ∀ {i : Call} {answer}, (∀ m, i ≠ .send m) → (∀ m, i ≠ .arrived m .client) →
      Conveyed S c i answer ([], []) := by
    intro i answer hsend harrived
    exact .nothing (fun m h => absurd h (hsend m)) fun m _ h => absurd h (harrived m)
  cases i with
  | arrived m operation =>
    cases operation with
    | handshake =>
      rw [show (c.call S (.arrived m .handshake)).1.traffic = (c.turn.takeHandshake S m).traffic from rfl,
        traffic_takeHandshake]
      exact hnothing nofun nofun
    | client => exact conveyed_takeMessage m _ c
  | streamFailed e =>
    have htraffic : (c.turn.takeError e).traffic = ([], []) := by
      unfold Turn.takeError
      split <;> rfl
    rw [show (c.call S (.streamFailed e)).1.traffic = (c.turn.takeError e).traffic from rfl, htraffic]
    exact hnothing nofun nofun
  | send m => exact conveyed_send opens m c
  | accept =>
    rw [show (c.call S .accept).1.traffic = (c.turn.accept S).traffic from rfl, traffic_accept]
    exact hnothing nofun nofun
  | close =>
    have htraffic : c.turn.close.traffic = ([], []) := by
      unfold Turn.close
      split <;> rfl
    rw [show (c.call S .close).1.traffic = c.turn.close.traffic from rfl, htraffic]
    exact hnothing nofun nofun

variable (S) in
/-- The rules for the messages of the application in the runs of `c₀`. -/
structure Shielded (c₀ : Channel ε σ τ) : Prop where
  /-- A frame of the application is only written when the owner sends a message, and carries it under the
  key of the channel. -/
  written : ∀ ms i frame done answer,
    .wrote frame .client done answer ∈ ((c₀.run S ms).2.call S i).1.acts →
      ∃ m key, i = .send m ∧ (c₀.run S ms).2.key = some key ∧ frame.Carries S.suite key m
  /-- A message is only delivered when a frame of the application comes in that carries it under the key of
  the channel, and it is not flagged any more. -/
  delivered : ∀ ms i m, .message m ∈ ((c₀.run S ms).2.call S i).1.events →
    ∃ frame key, i = .arrived frame .client ∧ (c₀.run S ms).2.key = some key ∧
      frame.Carries S.suite key m ∧ m.encrypted = false

/-- The rules hold of every channel, in whatever state it begins. -/
theorem shielded (opens : S.suite.Opens) (c₀ : Channel ε σ τ) : Shielded S c₀ where
  written ms i frame done answer hwrote := by
    have hmem : (frame, answer) ∈ ((c₀.run S ms).2.call S i).1.traffic.1 :=
      List.mem_filterMap.2 ⟨_, hwrote, rfl⟩
    have hconveyed := conveyed_call opens i (c₀.run S ms).2
    generalize ((c₀.run S ms).2.call S i).1.traffic = traffic at hmem hconveyed
    cases hconveyed with
    | nothing _ _ | delivered _ _ => cases hmem
    | @sent m frame' key written _ keyed carries _ =>
      cases List.mem_singleton.1 hmem
      exact ⟨m, key, rfl, keyed, carries⟩
  delivered ms i m htold := by
    have hmem : m ∈ ((c₀.run S ms).2.call S i).1.traffic.2 := List.mem_filterMap.2 ⟨_, htold, rfl⟩
    have hconveyed := conveyed_call opens i (c₀.run S ms).2
    generalize ((c₀.run S ms).2.call S i).1.traffic = traffic at hmem hconveyed
    cases hconveyed with
    | nothing _ _ | sent _ _ _ => cases hmem
    | @delivered m' frame key _ keyed revealed =>
      cases List.mem_singleton.1 hmem
      obtain ⟨hcarries, hunflagged⟩ := DeviceMessage.carries_of_revealed revealed
      exact ⟨frame, key, rfl, keyed, hcarries, hunflagged⟩

end Channel

/-! ## Along a run -/

/-- The frames of the application that the stream took, in order. -/
def Outcome.taken (os : List Outcome) : List DeviceMessage :=
  os.flatMap fun o => o.traffic.1.filterMap fun w => if w.2.isOk then some w.1 else none

/-- The messages of the application that were delivered, in order. -/
def Outcome.delivered (os : List Outcome) : List DeviceMessage := os.flatMap fun o => o.traffic.2

/-- Frames are taken one outcome after another. -/
theorem Outcome.taken_cons (o : Outcome) (os : List Outcome) :
    taken (o :: os) = taken [o] ++ taken os := by
  simp [taken]

/-- Messages are delivered one outcome after another. -/
theorem Outcome.delivered_cons (o : Outcome) (os : List Outcome) :
    delivered (o :: os) = o.traffic.2 ++ delivered os := rfl

namespace Channel

/-- The message that a move has sent, if it was not refused. -/
def Move.sent? (m : Move σ τ) (answer : Except ChannelError Unit) : Option DeviceMessage :=
  match m with
  | .call (.send message) => if answer.isOk then some message else none
  | _ => none

/-- The frame of the application that a move brings. -/
def Move.client? : Move σ τ → Option DeviceMessage
  | .call (.arrived frame .client) => some frame
  | _ => none

/-- The messages that moves with the given outcomes have sent, in order. -/
def sent (ms : List (Move σ τ)) (os : List Outcome) : List DeviceMessage :=
  (ms.zip os).flatMap fun p => (p.1.sent? p.2.answer).toList

/-- The frames of the application that moves bring, in order. -/
def arrivals (ms : List (Move σ τ)) : List DeviceMessage := ms.flatMap fun m => m.client?.toList

variable {c : Channel ε σ τ} {key : SessionKey}

/-- If a message is sent by a move then one frame is taken, which says the message; otherwise none is. -/
theorem revealed_taken_move (opens : S.suite.Opens) (held : c.Holds key) (m : Move σ τ) :
    (Outcome.taken [(c.move S m).1]).filterMap (DeviceMessage.revealed? S.suite key) =
      (m.sent? (c.move S m).1.answer).toList.map DeviceMessage.cleared := by
  cases m with
  | call i =>
    have hconveyed := conveyed_call opens i c
    simp only [move, Outcome.taken, List.flatMap_cons, List.flatMap_nil, List.append_nil]
    generalize (c.call S i).1.answer = answer at *
    generalize (c.call S i).1.traffic = traffic at *
    cases hconveyed with
    | nothing unsent _ =>
      rcases i with _ | _ | m | _ | _
      case send =>
        rcases answer with _ | ⟨⟩
        · rfl
        · exact absurd rfl (unsent m rfl)
      all_goals rfl
    | @sent m frame key' written _ keyed carries answered =>
      obtain rfl : key' = key := by
        rcases held with held | ⟨hnone, _⟩
        · exact Option.some.inj (keyed.symm.trans held)
        · cases keyed.symm.trans hnone
      rcases written with e | ⟨⟩
      · rcases answer with _ | ⟨⟩
        · rfl
        · cases answered.1 rfl
      · rw [answered.2 rfl]
        show [frame].filterMap (DeviceMessage.revealed? S.suite key') = [m.cleared]
        rw [List.filterMap_cons_some carries.revealed, List.filterMap_nil]
    | delivered _ _ => rfl
  | _ => rfl

/-- What the frames that were taken say to those who hold the key is what was sent. -/
theorem revealed_taken_run (opens : S.suite.Opens) (sound : c.Sound) (held : c.Holds key)
    (ms : List (Move σ τ)) :
    (Outcome.taken (c.run S ms).1).filterMap (DeviceMessage.revealed? S.suite key) =
      (sent ms (c.run S ms).1).map DeviceMessage.cleared := by
  induction ms generalizing c with
  | nil => rfl
  | cons m ms ih =>
    rw [run_cons, Outcome.taken_cons, List.filterMap_append, revealed_taken_move opens held m,
      ih (sound_move m sound) (holds_run [m] sound held)]
    exact List.map_append.symm

/-- What was dropped with a channel at its end is not set again. -/
theorem Upshot.dropped {t : Turn ε σ τ} (h : Upshot c t)
    (dropped : c.key = none ∧ c.phase.isTerminal = true) :
    t.key = none ∧ t.phase.isTerminal = true := by
  obtain ⟨hkey, hover⟩ := dropped
  have hended : c.phase ≠ .handshaking := by
    intro hphase
    rw [hphase] at hover
    cases hover
  cases h with
  | goesOn phase key _ _ _ _ _ => exact ⟨key.trans hkey, by rw [phase, hover]⟩
  | shows before _ _ _ _ _ _ | agrees before _ _ _ _ _ _ _ | resumes before _ _ _ _ _ _ _
  | stores before _ _ _ _ _ _ _ _ => exact absurd before hended
  | fails _ phase key _ _ _ _ | closes _ phase key _ _ _ => exact ⟨key, by rw [phase]; rfl⟩

/-- A key that is there at the end of a run was not dropped before. -/
theorem keyed_of_holds {ms : List (Move σ τ)} (sound : c.Sound) (held : c.Holds key)
    (kept : (c.run S ms).2.key = some key) : c.key = some key := by
  refine held.resolve_right fun dropped => ?_
  have h : (c.run S ms).2.Sound ∧
      (c.run S ms).2.key = none ∧ (c.run S ms).2.phase.isTerminal = true := by
    refine run_induction
      (P := fun _ d => d.Sound ∧ d.key = none ∧ d.phase.isTerminal = true) ⟨sound, dropped⟩ ?_
    rintro _ d m _ ⟨hsound, hdropped⟩
    obtain ⟨t, ht, hd, _⟩ := upshot_move (S := S) m hsound
    rw [← hd]
    exact ⟨hd ▸ sound_move m hsound, ht.dropped hdropped⟩
  cases kept.symm.trans h.2.1

/-- A channel with a key delivers what the frame says that comes in, if it says anything. -/
theorem delivered_move (opens : S.suite.Opens) (sound : c.Sound) (keyed : c.key = some key)
    (m : Move σ τ) :
    (c.move S m).1.traffic.2 =
      m.client?.toList.filterMap (DeviceMessage.revealed? S.suite key) := by
  cases m with
  | call i =>
    have hconveyed := conveyed_call opens i c
    simp only [move]
    generalize (c.call S i).1.answer = answer at *
    generalize (c.call S i).1.traffic = traffic at *
    cases hconveyed with
    | nothing _ unread =>
      rcases i with ⟨frame, _ | _⟩ | _ | _ | _ | _
      case arrived.client =>
        have hopen : c.phase.isTerminal = false :=
          sound.alive (by rw [keyed]; exact Option.some_ne_none key)
        show [] = [frame].filterMap (DeviceMessage.revealed? S.suite key)
        rw [List.filterMap_cons_none (unread frame key rfl hopen keyed), List.filterMap_nil]
      all_goals rfl
    | sent _ _ _ => rfl
    | @delivered m frame key' _ keyed' revealed =>
      obtain rfl : key' = key := Option.some.inj (keyed'.symm.trans keyed)
      show [m] = [frame].filterMap (DeviceMessage.revealed? S.suite key')
      rw [List.filterMap_cons_some revealed, List.filterMap_nil]
  | _ => rfl

/-- As long as a channel keeps its key it delivers what the frames say that come in, in order. -/
theorem delivered_run (opens : S.suite.Opens) (sound : c.Sound) (keyed : c.key = some key)
    {ms : List (Move σ τ)} (kept : (c.run S ms).2.key = some key) :
    Outcome.delivered (c.run S ms).1 =
      (arrivals ms).filterMap (DeviceMessage.revealed? S.suite key) := by
  induction ms generalizing c with
  | nil => rfl
  | cons m ms ih =>
    have hsound : (c.move S m).2.Sound := sound_move m sound
    have hkeyed := keyed_of_holds hsound (holds_run (S := S) [m] sound (.inl keyed)) kept
    rw [run_cons, Outcome.delivered_cons, delivered_move opens sound keyed m, ih hsound hkeyed kept]
    exact (List.filterMap_append).symm

/-! ## From one channel to another -/

variable {ε' σ' τ' : Type} {S' : Setting ε' σ' τ'}

/-- If the cipher opens what it seals, the messages of the application are shielded in every run of every
channel; and what is sent on one channel from a moment on at which it holds a key is delivered by another
one that holds the same key, once the frames have arrived there in order. -/
theorem shielded_and_passed_on (opens : S.suite.Opens) (suite : S'.suite = S.suite)
    {a₀ : Channel ε σ τ} {b₀ : Channel ε' σ' τ'} (newA : New S a₀) (newB : New S' b₀) :
    Shielded S a₀ ∧ Shielded S' b₀ ∧
    ∀ (key : SessionKey) (before ms : List (Move σ τ)) (before' ms' : List (Move σ' τ')),
      (a₀.run S before).2.key = some key →
      (b₀.run S' before').2.key = some key →
      (b₀.run S' (before' ++ ms')).2.key = some key →
      arrivals ms' = Outcome.taken ((a₀.run S before).2.run S ms).1 →
      Outcome.delivered ((b₀.run S' before').2.run S' ms').1 =
          (sent ms ((a₀.run S before).2.run S ms).1).map DeviceMessage.cleared ∧
        ((∀ m ∈ sent ms ((a₀.run S before).2.run S ms).1, m.encrypted = false) →
          Outcome.delivered ((b₀.run S' before').2.run S' ms').1 =
            sent ms ((a₀.run S before).2.run S ms).1) := by
  have opens' : S'.suite.Opens := by rwa [suite]
  refine ⟨shielded opens a₀, shielded opens' b₀, ?_⟩
  intro key before ms before' ms' held held' kept arrived
  rw [run_append] at kept
  have soundA := sound_run (S := S) before newA.sound
  have soundB := sound_run (S := S') before' newB.sound
  have hdelivered :=
    calc Outcome.delivered ((b₀.run S' before').2.run S' ms').1
        = (arrivals ms').filterMap (DeviceMessage.revealed? S'.suite key) :=
          delivered_run opens' soundB held' kept
      _ = (Outcome.taken ((a₀.run S before).2.run S ms).1).filterMap
            (DeviceMessage.revealed? S.suite key) := by
          rw [arrived, suite]
      _ = (sent ms ((a₀.run S before).2.run S ms).1).map DeviceMessage.cleared :=
          revealed_taken_run opens soundA (.inl held) ms
  refine ⟨hdelivered, fun unflagged => hdelivered.trans ?_⟩
  have hsame : (sent ms ((a₀.run S before).2.run S ms).1).map DeviceMessage.cleared =
      (sent ms ((a₀.run S before).2.run S ms).1).map id :=
    List.map_congr_left fun m hm => DeviceMessage.cleared_of_unflagged (unflagged m hm)
  rw [hsame, List.map_id]

/-- The owner sends two messages, and in between the stream refuses a third one. -/
def conversation : List (Move Bench.Vault Bench.Outlet) :=
  [.call (.send ⟨some Bench.peer, false, [1, 2]⟩),
    .onStream fun _ => ⟨true⟩, .call (.send ⟨none, false, [3]⟩), .onStream fun _ => ⟨false⟩,
    .call (.send ⟨none, false, []⟩)]

/-- The stream brings frames of the application. -/
def bringing (frames : List DeviceMessage) : List (Move Bench.Vault Bench.Outlet) :=
  frames.map fun frame => .call (.arrived frame .client)

/-- An association that was confirmed and established. -/
def associated : Channel Bench.Script Bench.Vault Bench.Outlet :=
  ((Bench.associating .empty).run Bench.setting untilEstablished).2

/-- The two messages that the stream took arrive at another channel with the same key. -/
theorem conversation_passed_on :
    Outcome.delivered (associated.run Bench.setting (bringing (Outcome.taken
      (associated.run Bench.setting conversation).1))).1 =
      [⟨some Bench.peer, false, [1, 2]⟩, ⟨none, false, []⟩] := by
  have new : New Bench.setting (Bench.associating .empty) := .association (.visual ..)
  have h := (shielded_and_passed_on Suite.standard_opens rfl new new).2.2 Bench.agreedKey
    untilEstablished conversation untilEstablished
    (bringing (Outcome.taken (associated.run Bench.setting conversation).1))
    (by decide +kernel) (by decide +kernel) (by decide +kernel) (by decide +kernel)
  exact (h.2 (by decide +kernel)).trans (by decide +kernel)

end Channel

end DevicePairing
