import DevicePairing.Proofs.Channel.Handshake

/-!
# Confirmation out of band

In the out-of-band flow no user compares codes. The engine reports a code when it takes in the second
frame, the code goes to the peer under the out-of-band cipher, and the peer has to send the same code
back. `Association.Confirmed` says what this is worth: unless the owner of the channel accepts the code in
the peer's place, the engine is asked for a key only when a frame comes in that the cipher decrypts to the
very code, and only after that code was written. `Association.confirmed_run` proves it for every run of
every such channel, together with the fate of a wrong code.

The engine may report any stage it likes, so what stands between it and the key is not the stage but the
code that the channel has kept. `Association.Confirming` is the invariant: a code that is kept was reported
and written.
-/

namespace DevicePairing

/-- Whether an act asks the engine to take in the second frame. -/
def Act.isProceed : Act → Bool
  | .asked (.proceed _) _ => true
  | _ => false

variable {ε σ τ : Type} {S : Setting ε σ τ}

/-- The engine is asked to take in the second frame only when the second frame is due. -/
theorem Channel.stage_of_isProceed {c : Channel ε σ τ} {i : Call} {a : Act}
    (ha : a ∈ (c.serve S i).acts) (hproceed : a.isProceed = true) : c.stage = .inProgress := by
  have hasks : a.isQuestion = true := by
    cases a <;> first | rfl | cases hproceed
  have hoccasion := ((questions_serve (S := S) i c).occasion ha hasks).1
  generalize c.serve S i = t at *
  cases hoccasion with
  | proceed _ _ stage _ | proceedReturning _ _ stage _ => exact stage
  | _ => cases hproceed

/-- The engine of an association is asked for a key, and a key is set, only when the code is accepted. -/
theorem Channel.accepts_of_keyed {c : Channel ε σ τ} (sound : c.Sound)
    (returning : c.kind.returning = none) {m : Move σ τ}
    (keyed : (∃ answer, .asked .verify answer ∈ (c.move S m).1.acts) ∨
      c.key = none ∧ (c.move S m).2.key ≠ none) : ∃ i, m = .call i ∧ Accepts S c i := by
  cases m with
  | call i =>
    refine ⟨i, rfl, ?_⟩
    have hacts : (c.move S (.call i)).1.acts = (c.serve S i).acts := call_acts ..
    have hchannel : (c.move S (.call i)).2 = (c.serve S i).toChannel := call_channel ..
    rw [hacts, hchannel] at keyed
    rcases keyed with ⟨answer, hasked⟩ | ⟨hfresh, hkeyed⟩
    · have hoccasion := ((questions_serve (S := S) i c).occasion hasked rfl).1
      generalize c.serve S i = t at *
      cases hoccasion with
      | verify accepts => exact accepts
    · have hlasting := lasting_serve (S := S) (i := i) sound
      have hupshot := upshot_serve (S := S) i sound
      generalize c.serve S i = t at *
      cases hupshot with
      | goesOn _ key _ _ _ _ _ | shows _ _ key _ _ _ _ => exact absurd (key.trans hfresh) hkeyed
      | fails _ _ key _ _ _ _ | closes _ _ key _ _ _ => exact absurd key hkeyed
      | stores _ _ _ _ key _ _ _ _ => exact absurd (key.trans hfresh) hkeyed
      | resumes _ _ kind _ _ _ _ _ => cases returning.symm.trans kind
      | agrees _ phase _ _ _ _ _ _ =>
        cases hlasting phase with
        | prepares prepares _ => exact absurd (prepares.key.trans hfresh) hkeyed
        | agrees accepts _ => exact accepts
  | _ =>
    rcases keyed with ⟨_, hasked⟩ | ⟨hfresh, hkeyed⟩
    · cases hasked
    · exact absurd hfresh hkeyed

namespace Association

variable {cipher : OutOfBand.Cipher} {c : Channel ε σ τ} {acts : List Act}

/-! ## A code that is kept -/

variable (S) in
/-- The engine was asked once to take in the second frame and reported a code, and the code was written to
the peer under the out-of-band cipher. -/
def Reported (cipher : OutOfBand.Cipher) (code : Bytes) (acts : List Act) : Prop :=
  ∃ payload reply encrypted done,
    acts.filter Act.isProceed = [.asked (.proceed payload) (.ok reply)] ∧
    reply.oobCode = some code ∧ cipher.encode S.suite code = .ok encrypted ∧
    [.asked (.proceed payload) (.ok reply), .codeSealed cipher code (.ok encrypted),
      .wrote ⟨none, false, encrypted⟩ .handshake done (.ok ())] <:+: acts

variable (S) in
/-- How far the confirmation has come before there is a key; `acts` are all that was done. -/
inductive Confirming (cipher : OutOfBand.Cipher) (acts : List Act) (c : Channel ε σ τ) : Prop where
  /-- The second frame is still to come. -/
  | unreported {pendingKey : Option SessionKey} {device : Option Uuid}
    (kind : c.kind = .association (.outOfBand cipher none) pendingKey device)
    (unasked : ∀ a ∈ acts, a.isProceed = false)
  /-- A code is kept, which was reported and written. -/
  | reported {code : Bytes} {pendingKey : Option SessionKey} {device : Option Uuid}
    (kind : c.kind = .association (.outOfBand cipher (some code)) pendingKey device)
    (late : Stage.inProgress.rank < c.stage.rank) (reported : Reported S cipher code acts)

/-- What the second frame leaves behind in the out-of-band flow, if the handshake goes on. -/
theorem proceed_of_ok {payload : Bytes} {t t' : Turn ε σ τ} {former : Option Bytes}
    {pendingKey : Option SessionKey} {device : Option Uuid}
    (kind : t.kind = .association (.outOfBand cipher former) pendingKey device)
    (h : proceed S payload t = (.ok (), t')) :
    ∃ reply code encrypted done, reply.oobCode = some code ∧
      cipher.encode S.suite code = .ok encrypted ∧
      t'.kind = .association (.outOfBand cipher (some code)) pendingKey device ∧
      t'.stage = .oobVerificationNeeded ∧
      t'.acts = t.acts ++ [.asked (.proceed payload) (.ok reply),
        .codeSealed cipher code (.ok encrypted),
        .wrote ⟨none, false, encrypted⟩ .handshake done (.ok ())] := by
  obtain ⟨reply, t₁, hask, h₁⟩ := Work.bind_of_ok h
  obtain ⟨hkind₁, hacts₁⟩ := Work.ask_of_ok hask
  rw [Work.bind_apply, Work.get_apply] at h₁
  simp only [hkind₁, kind, sendCode] at h₁
  by_cases hstage : reply.stage = .oobVerificationNeeded
  case neg =>
    rw [if_pos hstage] at h₁
    cases h₁
  rw [if_neg (not_not_intro hstage)] at h₁
  obtain ⟨code, t₂, hrequire, h₂⟩ := Work.bind_of_ok h₁
  obtain ⟨encrypted, t₃, hseal, h₃⟩ := Work.bind_of_ok h₂
  obtain ⟨_, t₄, hset, h₄⟩ := Work.bind_of_ok h₃
  obtain ⟨_, t₅, hadvance, hsend⟩ := Work.bind_of_ok h₄
  obtain ⟨hcode, rfl⟩ := Work.require_of_ok hrequire
  obtain ⟨hencoded, rfl⟩ := Work.sealCode_of_ok hseal
  cases hset
  obtain rfl := Work.advance_of_ok hadvance
  obtain ⟨done, hkind, hreached, hacts⟩ := Work.sendPlain_of_ok hsend
  refine ⟨reply, code, encrypted, done, hcode, hencoded, hkind, hreached.trans hstage, ?_⟩
  rw [hacts]
  simp [Turn.note, hacts₁]

/-! ## Before there is a key -/

/-- What is done afterwards does not take a report back, unless the engine is asked for another. -/
theorem Reported.append {code : Bytes} {as : List Act} (h : Reported S cipher code acts)
    (unasked : ∀ a ∈ as, a.isProceed = false) : Reported S cipher code (acts ++ as) := by
  obtain ⟨payload, reply, encrypted, done, hasked, hreported, hencoded, hwritten⟩ := h
  refine ⟨payload, reply, encrypted, done, ?_, hreported, hencoded,
    hwritten.trans (List.prefix_append ..).isInfix⟩
  have hnone : as.filter Act.isProceed = [] := by simpa using unasked
  rw [List.filter_append, hasked, hnone, List.append_nil]

/-- A confirmation stays where it is as long as the code is kept and no second frame comes in. -/
theorem Confirming.keep {c' : Channel ε σ τ} {as : List Act} (h : Confirming S cipher acts c)
    (kind : c'.kind = c.kind) (rank : c.stage.rank ≤ c'.stage.rank)
    (unasked : ∀ a ∈ as, a.isProceed = false) : Confirming S cipher (acts ++ as) c' := by
  cases h with
  | unreported kind' unasked' =>
    refine .unreported (kind.trans kind') fun a ha => ?_
    exact (List.mem_append.1 ha).elim (unasked' a) (unasked a)
  | reported kind' late reported =>
    exact .reported (kind.trans kind') (Nat.lt_of_lt_of_le late rank) (reported.append unasked)

/-- An association that is being confirmed is not for a device that comes back. -/
theorem Confirming.returning (h : Confirming S cipher acts c) : c.kind.returning = none := by
  cases h with
  | unreported kind _ | reported kind _ _ =>
    rw [kind]
    rfl

/-- A frame sets off a step after which the handshake goes on: the second frame has the code reported
and written, the peer's code brings the key, and the first frame changes nothing. -/
theorem Confirming.setsOff (h : Confirming S cipher acts c) {payload : Bytes}
    {w : Work ε σ τ Unit} (phase : c.phase = .handshaking) (step : Channel.SetsOff S c payload w)
    (asked : ∀ a ∈ (c.turn.attempt w).acts, a.isProceed = true → c.stage = .inProgress)
    (lasts : (c.turn.attempt w).phase = .handshaking) :
    (c.turn.attempt w).key ≠ none ∨
      Confirming S cipher (acts ++ (c.turn.attempt w).acts) (c.turn.attempt w).toChannel := by
  cases step with
  | init stage _ =>
    have hprepares := Channel.prepares_attempt_of_lasts (prepares_init (S := S) payload c.turn) lasts
    have hkind : (c.turn.attempt (init S payload)).kind = c.kind := by
      have hleaves := kind_init (S := S) payload c.turn
      rwa [Turn.attempt_of_lasts lasts] at hleaves
    refine .inr (h.keep hkind hprepares.rank fun a ha => Bool.eq_false_iff.2 fun hproceed => ?_)
    cases stage.symm.trans (asked a ha hproceed)
  | proceed stage _ =>
    cases h with
    | unreported kind unasked =>
      obtain ⟨reply, code, encrypted, done, hreported, hencoded, hkind, hstage, hacts⟩ :=
        proceed_of_ok (t := c.turn) kind (Turn.attempt_of_lasts lasts)
      rw [show c.turn.acts = [] from rfl, List.nil_append] at hacts
      refine .inr (.reported hkind ?_ ⟨payload, reply, encrypted, done, ?_, hreported, hencoded, ?_⟩)
      · show Stage.inProgress.rank < (c.turn.attempt (proceed S payload)).stage.rank
        rw [hstage]
        decide
      · have hnone : acts.filter Act.isProceed = [] := by simpa using unasked
        rw [List.filter_append, hnone, hacts]
        rfl
      · rw [hacts]
        exact (List.suffix_append ..).isInfix
    | reported _ late _ =>
      rw [stage] at late
      exact absurd late (Nat.lt_irrefl _)
  | peerCode _ _ =>
    rcases peerCode_refused_or (S := S) payload c.turn with ⟨error, hrefused⟩ | ⟨_, _, _, _, _, _, hsame⟩
    · exact nomatch (Turn.attempt_of_lasts lasts).symm.trans hrefused
    · rw [Turn.attempt_eq_settle, hsame, ← Turn.attempt_eq_settle] at lasts ⊢
      obtain ⟨key, hagreed⟩ := Channel.agreed_of_lasts lasts
      refine .inl ?_
      rw [hagreed.keyed]
      exact Option.some_ne_none key
  | final _ _ =>
    rw [Turn.attempt_eq_settle] at lasts
    exact absurd lasts (Channel.phase_settle_of_stored (stored_final payload phase))
  | verify _ kind =>
    have hreturning := h.returning
    rw [kind] at hreturning
    cases hreturning
  | proceedReturning _ kind | resume _ kind => cases h.returning.symm.trans kind
  | stray _ => exact nomatch Turn.attempt_of_lasts lasts

/-- As long as there is no key and nobody accepts the code in the peer's place, every call after which
the handshake goes on has the code accounted for, or brings the key. -/
theorem Confirming.serve (h : Confirming S cipher acts c) (fresh : c.key = none) {i : Call}
    (unaccepted : i ≠ .accept) (lasts : (c.serve S i).phase = .handshaking) :
    (c.serve S i).key ≠ none ∨
      Confirming S cipher (acts ++ (c.serve S i).acts) (c.serve S i).toChannel := by
  have hasked : ∀ a ∈ (c.serve S i).acts, a.isProceed = true → c.stage = .inProgress :=
    fun a ha hproceed => Channel.stage_of_isProceed ha hproceed
  have hdispatched := Channel.dispatched_serve (S := S) i c
  generalize c.serve S i = t at *
  cases hdispatched with
  | idle | told _ _ _ => exact .inr (h.keep rfl (Nat.le_refl _) (List.forall_mem_nil _))
  | sent _ _ keyed _ _ => exact absurd fresh keyed
  | unreadable _ | premature _ => exact absurd lasts (Turn.phase_fail_ne_handshaking _ _)
  | frame phase _ step => exact h.setsOff phase step hasked lasts
  | accepted _ _ _ => exact absurd rfl unaccepted
  | closed _ => cases lasts

/-- As long as the handshake lasts and nobody accepts the code in the peer's place, there is a key, or
the code is accounted for. -/
theorem confirming_run {c₀ : Channel ε σ τ} (sound : c₀.Sound) (start : Confirming S cipher [] c₀)
    {ms : List (Channel.Move σ τ)} (unaccepted : .call .accept ∉ ms)
    (lasts : (c₀.run S ms).2.phase = .handshaking) :
    (c₀.run S ms).2.key ≠ none ∨
      Confirming S cipher (Outcome.actsOf (c₀.run S ms).1) (c₀.run S ms).2 := by
  refine Channel.handshaking_run (P := fun acts d => d.key ≠ none ∨ Confirming S cipher acts d) sound
    (.inr start) ?_ ?_ lasts
  · intro acts d i hi hsound _ hlasts hP
    by_cases hfresh : d.key = none
    · refine (hP.resolve_left (not_not_intro hfresh)).serve hfresh ?_ hlasts
      rintro rfl
      exact unaccepted hi
    · refine .inl ?_
      cases Channel.lasting_serve hsound hlasts with
      | prepares prepares _ => exact fun h => hfresh (prepares.key.symm.trans h)
      | agrees _ agreed => exact absurd agreed.fresh hfresh
  · intro acts d d' hP hrests
    rcases hP with hkey | hconfirming
    · exact .inl fun h => hkey (hrests.key.symm.trans h)
    · refine .inr ?_
      have hrank : d.stage.rank ≤ d'.stage.rank := Nat.le_of_eq (by rw [hrests.stage])
      simpa using hconfirming.keep hrests.kind hrank (List.forall_mem_nil _)

/-! ## The rules -/

/-- The channel waits for the peer's code and keeps its own, which goes with a cipher. -/
def Waits (c : Channel ε σ τ) (cipher : OutOfBand.Cipher) (code : Bytes) : Prop :=
  c.phase = .handshaking ∧ c.stage = .oobVerificationNeeded ∧
    ∃ pendingKey device, c.kind = .association (.outOfBand cipher (some code)) pendingKey device

variable (S) in
/-- At a frame of the handshake the channel fails with a given code, and does nothing. -/
def Refuses (c : Channel ε σ τ) (message : DeviceMessage) (error : ErrorCode) : Prop :=
  ∃ d : Channel ε σ τ, d.phase = .failed error ∧
    c.call S (.arrived message .handshake) = (⟨.ok (), [], [.failed error]⟩, d)

variable (S) in
/-- The rules for the confirmation of an out-of-band association `c₀` with a given cipher. -/
structure Confirmed (cipher : OutOfBand.Cipher) (c₀ : Channel ε σ τ) : Prop where
  /-- As long as nobody accepts the code in the peer's place, the engine is asked for a key, and a key
  is set, only when a frame comes in that the cipher decrypts to the code that the engine has reported,
  and after that code was written under the cipher. -/
  matched : ∀ ms m, .call .accept ∉ ms ++ [m] →
    ((∃ answer, .asked .verify answer ∈ ((c₀.run S ms).2.move S m).1.acts) ∨
      (c₀.run S ms).2.key = none ∧ ((c₀.run S ms).2.move S m).2.key ≠ none) →
    ∃ message code, m = .call (.arrived message .handshake) ∧ message.encrypted = false ∧
      cipher.decode S.suite message.payload = .ok code ∧
      Reported S cipher code (Outcome.actsOf (c₀.run S ms).1)
  /-- A frame that is not sealed and decrypts to another code than the one kept makes the channel fail,
  and nothing is done. -/
  differs : ∀ ms message cipher' code peer, Waits (c₀.run S ms).2 cipher' code →
    message.encrypted = false → cipher'.decode S.suite message.payload = .ok peer → peer ≠ code →
    Refuses S (c₀.run S ms).2 message .invalidVerification
  /-- So does one that does not decrypt. -/
  unreadable : ∀ ms message cipher' code e, Waits (c₀.run S ms).2 cipher' code →
    message.encrypted = false → cipher'.decode S.suite message.payload = .error e →
    Refuses S (c₀.run S ms).2 message .invalidHandshake

/-- A frame that comes in while the channel waits for the peer's code is taken for it. -/
theorem Waits.serve {code : Bytes} (h : Waits c cipher code) {message : DeviceMessage}
    (plain : message.encrypted = false) :
    c.serve S (.arrived message .handshake) = c.turn.attempt (peerCode S message.payload) := by
  obtain ⟨phase, stage, pendingKey, device, kind⟩ := h
  have hhandle : Turn.handle S message.payload c.turn = peerCode S message.payload c.turn := by
    unfold Turn.handle handle
    simp only [Work.bind_apply, Work.get_apply, Channel.turn, kind, stage]
  rw [Channel.serve_of_plain phase plain, Turn.attempt_eq_settle, hhandle, ← Turn.attempt_eq_settle]

/-- What is refused as the peer's code is refused by the channel. -/
theorem Waits.refuses {code : Bytes} (h : Waits c cipher code) {message : DeviceMessage}
    (plain : message.encrypted = false) {error : ErrorCode}
    (refused : peerCode S message.payload c.turn = (.error error, c.turn)) :
    Refuses S c message error := by
  have hserve := h.serve (S := S) plain
  rw [Turn.attempt_eq_settle, refused] at hserve
  exact ⟨_, Turn.phase_fail_of_handshaking h.1 error, Channel.call_of_refused h.1 hserve⟩

/-- A new association obeys the rules if no code is kept at the start. -/
theorem Confirming.confirmed {c₀ : Channel ε σ τ} (sound : c₀.Sound)
    (start : Confirming S cipher [] c₀) : Confirmed S cipher c₀ := by
  constructor
  case matched =>
    intro ms m unaccepted keyed
    have hsound := Channel.sound_run (S := S) ms sound
    have hreturning := (Channel.returning_run (S := S) ms sound).trans start.returning
    obtain ⟨i, rfl, haccepts⟩ := Channel.accepts_of_keyed hsound hreturning keyed
    have hfresh := haccepts.fresh hsound
    cases haccepts with
    | user _ _ _ => exact absurd (List.mem_append_right _ (List.mem_singleton_self _)) unaccepted
    | @code message payload code cipher' pendingKey device phase opens _ kind decoded =>
      obtain ⟨hplain, rfl⟩ := opens.plain_of_fresh hfresh
      have hconfirming := confirming_run sound start
        (fun h => unaccepted (List.mem_append_left _ h)) phase
      cases hconfirming.resolve_left (not_not_intro hfresh) with
      | unreported kind' _ => cases kind.symm.trans kind'
      | reported kind' _ reported =>
        cases kind.symm.trans kind'
        exact ⟨message, code, rfl, hplain, decoded, reported⟩
  case differs =>
    intro ms message cipher' code peer waits plain decoded differs
    refine waits.refuses plain ?_
    obtain ⟨_, _, pendingKey, device, kind⟩ := waits
    rw [peerCode_of_code kind, decoded]
    exact if_neg differs
  case unreadable =>
    intro ms message cipher' code e waits plain decoded
    refine waits.refuses plain ?_
    obtain ⟨_, _, pendingKey, device, kind⟩ := waits
    rw [peerCode_of_code kind, decoded]

/-- Every association that is confirmed out of band obeys the rules with the cipher whose token was
pushed, whatever its engine, its store and its stream do. -/
theorem confirmed_run {push : Bytes → Except OutOfBand.Error Unit} {engine : ε} {store : σ}
    {stream : τ} {tape : Tape} {acts : List Act} {c₀ : Channel ε σ τ}
    (made : Channel.outOfBand push engine store stream tape = .ok (acts, c₀)) :
    ∃ cipher, acts = [.tokenPushed cipher.token, .listening true] ∧
      c₀.kind = .association (.outOfBand cipher none) none none ∧ Confirmed S cipher c₀ := by
  have hsound : c₀.Sound := (Channel.NewAssociation.outOfBand made).sound
  unfold Channel.outOfBand at made
  split at made
  · cases made
  next cipher tape' _ =>
    cases made
    have hstart : Confirming S cipher []
        (Channel.ofKind (.association (.outOfBand cipher none) none none) engine store stream tape') :=
      .unreported rfl (List.forall_mem_nil _)
    exact ⟨cipher, rfl, rfl, hstart.confirmed hsound⟩

/-- The randomness of the association below. -/
def countingTape : Tape := ⟨fun i => i.toUInt8, 0⟩

/-- The cipher of the association below. -/
def sharedCipher : OutOfBand.Cipher := (OutOfBand.Cipher.fresh countingTape).1

/-- An association that is confirmed out of band, with the code `[4, 2]`. -/
def confirmable : Channel Bench.Script Bench.Vault Bench.Outlet :=
  .ofKind (.association (.outOfBand sharedCipher none) none none)
    { init := [.ok { stage := .inProgress, next := some [1] }]
      proceed := [.ok { stage := .oobVerificationNeeded, oobCode := some [4, 2] }]
      verify := [.ok { stage := .finished, key := some Bench.agreedKey }]
      resume := [] }
    .empty ⟨false⟩ (OutOfBand.Cipher.fresh countingTape).2

/-- What happens to it until the peer's code is due. -/
def beforeConfirmation : List (Channel.Move Bench.Vault Bench.Outlet) := [.frame [1], .frame [2]]

/-- The peer confirms a code. -/
def confirmation (code : Bytes) : Channel.Move Bench.Vault Bench.Outlet :=
  .frame (((sharedCipher.reversed.encode .standard code).toOption).getD [])

/-- The right code brings the key, and it was reported and written before; a wrong one makes the channel
fail. -/
theorem confirmed_by_peer :
    Channel.outOfBand (fun _ => .ok ()) confirmable.engine confirmable.store confirmable.stream
      countingTape = .ok ([.tokenPushed sharedCipher.token, .listening true], confirmable) ∧
    Confirmed Bench.setting sharedCipher confirmable ∧
    (confirmable.run Bench.setting (beforeConfirmation ++ [confirmation [4, 2]])).2.key =
      some Bench.agreedKey ∧
    Reported Bench.setting sharedCipher [4, 2]
      (Outcome.actsOf (confirmable.run Bench.setting beforeConfirmation).1) ∧
    (confirmable.run Bench.setting (beforeConfirmation ++ [confirmation [4, 3]])).2.phase =
      .failed .invalidVerification := by
  have hmade : Channel.outOfBand (fun _ => .ok ()) confirmable.engine confirmable.store
      confirmable.stream countingTape =
        .ok ([.tokenPushed sharedCipher.token, .listening true], confirmable) := rfl
  obtain ⟨cipher, _, hkind, hconfirmed⟩ := confirmed_run (S := Bench.setting) hmade
  obtain rfl : sharedCipher = cipher := by simpa [confirmable, Channel.ofKind] using hkind
  have hfresh : (confirmable.run Bench.setting beforeConfirmation).2.key = none := by decide +kernel
  have hkeyed : (confirmable.run Bench.setting (beforeConfirmation ++ [confirmation [4, 2]])).2.key =
      some Bench.agreedKey := by
    decide +kernel
  have hset : ((confirmable.run Bench.setting beforeConfirmation).2.move Bench.setting
      (confirmation [4, 2])).2.key ≠ none := by
    rw [← Channel.run_concat, hkeyed]
    exact Option.some_ne_none _
  obtain ⟨message, code, hframe, _, hdecoded, hreported⟩ :=
    hconfirmed.matched beforeConfirmation (confirmation [4, 2])
      (by simp [beforeConfirmation, confirmation, Channel.Move.frame]) (.inr ⟨hfresh, hset⟩)
  cases hframe
  have hcode : (sharedCipher.decode .standard
      ((sharedCipher.reversed.encode .standard [4, 2]).toOption.getD [])).toOption = some [4, 2] := by
    decide +kernel
  cases hcode.symm.trans (congrArg Except.toOption hdecoded)
  exact ⟨hmade, hconfirmed, hkeyed, hreported, by decide +kernel⟩

end Association

end DevicePairing
