import DevicePairing.Proofs.Channel.Challenge
import DevicePairing.Proofs.Channel.Lockstep

/-!
# How long a handshake lasts

A channel that is driven with a responder does not wait for ever: once four frames of the handshake have
come in, whatever they say and whatever happens in between, the channel is established, has failed or is
closed (`Channel.over_of_four_frames`).

What runs out is `Channel.patience`, the count of frames that the channel can still take and be handshaking
afterwards. A new channel has three at most. Every frame after which the handshake goes on costs one: it
either shows who the peer is, which happens once, or it makes the responder take a step, and each step leads
to a later stage (`Channel.patience_serve`). No other call gives any of it back.
-/

namespace DevicePairing

variable {ε σ τ : Type}

/-- Whether a move brings a frame of the handshake. -/
def Channel.Move.bringsFrame : Channel.Move σ τ → Bool
  | .call (.arrived _ .handshake) => true
  | _ => false

namespace Channel

/-- How many frames of the handshake a channel can still take without the handshake being over. A device
that comes back has proved its key before the handshake is finished, and an association waits for one more
frame once it is; the proof of who comes back is one frame more. -/
def patience (c : Channel ε σ τ) : Nat := (if c.verified then 2 else 3) - c.stage.rank

/-- What is not taken back: neither the stage nor the word of the peer. -/
theorem patience_le {c c' : Channel ε σ τ} (rank : c.stage.rank ≤ c'.stage.rank)
    (latched : c.verified = true → c'.verified = true) : c'.patience ≤ c.patience := by
  unfold patience
  cases hverified : c.verified with
  | false => split <;> simp <;> omega
  | true =>
    rw [latched hverified]
    simp
    omega

/-- A later stage costs patience as long as there is some left. -/
theorem patience_lt {c c' : Channel ε σ τ} (rank : c.stage.rank < c'.stage.rank)
    (left : 0 < c.patience) (latched : c.verified = true → c'.verified = true) :
    c'.patience < c.patience := by
  unfold patience at *
  cases hverified : c.verified with
  | false =>
    rw [hverified] at left
    split <;> simp at * <;> omega
  | true =>
    rw [hverified] at left
    rw [latched hverified]
    simp at *
    omega

/-! ## Frames after which the handshake goes on -/

section

variable {S : Setting ε σ τ} {c : Channel ε σ τ}

/-- A frame after which the handshake goes on has set off a step, whether it was sealed or not. -/
theorem setsOff_of_lasts {m : DeviceMessage} (before : c.phase = .handshaking)
    (lasts : (c.serve S (.arrived m .handshake)).phase = .handshaking) :
    ∃ payload w, SetsOff S c payload w ∧ c.serve S (.arrived m .handshake) = c.turn.attempt w := by
  cases hsealed : m.encrypted with
  | false =>
    obtain ⟨w, hstep, hserve⟩ := setsOff_serve (S := S) before hsealed
    exact ⟨m.payload, w, hstep, hserve⟩
  | true =>
    have hserve : c.serve S (.arrived m .handshake) = c.turn.takeHandshake S m := rfl
    unfold Turn.takeHandshake at hserve
    rw [if_pos (show c.turn.phase.isHandshaking = true from Phase.isHandshaking_iff.2 before),
      if_pos hsealed] at hserve
    split at hserve
    · rw [hserve] at lasts
      exact absurd lasts (Turn.phase_fail_ne_handshaking _ _)
    split at hserve
    · next payload _ =>
      obtain ⟨w, hstep, hw⟩ := setsOff_handle (S := S) c payload
      refine ⟨payload, w, hstep, hserve.trans ?_⟩
      rw [Turn.attempt_eq_settle, Turn.attempt_eq_settle, hw]
    · rw [hserve] at lasts
      exact absurd lasts (Turn.phase_fail_ne_handshaking _ _)

/-- A peer whose answer is taken is verified. -/
theorem verified_of_lasts {device : Uuid} {expected : Option Bytes} {payload : Bytes}
    (lasts : (c.turn.attempt (Reconnection.verify S device expected payload)).phase = .handshaking) :
    (c.turn.attempt (Reconnection.verify S device expected payload)).verified = true := by
  have hok := Turn.attempt_of_lasts lasts
  cases expected with
  | none => cases hok
  | some expected =>
    have hchecked := Reconnection.checked_verify (S := S) device expected payload c.turn
    rw [hok] at hchecked
    generalize hr : (Except.ok () : Except ErrorCode Unit) = r at hchecked
    generalize c.turn.attempt (Reconnection.verify S device (some expected) payload) = t at *
    cases hchecked with
    | refused _ | unhashed _ _ | unanswered _ _ _ => cases hr
    | answered _ _ _ => rfl

end

/-! ## Driven with a responder -/

variable {suite : Suite} {store : SecretStore σ} {stream : MessageStream τ}
  {c : Channel Responder σ τ}

/-- If the handshake goes on after the responder was asked, it is at a later stage. -/
theorem rank_lt_of_consults {p : EngineCall → Prop} {w : Work Responder σ τ Unit}
    (inStep : InStep c) (consults : Work.Consults (.responding suite store stream) p w)
    (lasts : (c.turn.attempt w).phase = .handshaking) :
    c.stage.rank < (c.turn.attempt w).stage.rank := by
  have hok := Turn.attempt_of_lasts lasts
  rcases consults c.turn with ⟨hfailed, _⟩ | ⟨call, tape, _, _, hreached⟩
  · rw [hok] at hfailed
    exact absurd rfl hfailed
  · rw [hok] at hreached
    obtain ⟨reply, hreply, hstage⟩ := hreached rfl
    have answered := Responder.answered_answer (S := suite) call c.engine tape
    rw [show ((Responder.engine suite).answer call c.engine tape).1 = .ok reply from hreply]
      at answered
    rw [hstage, inStep.stage]
    exact answered.advances.1

/-- A frame after which the handshake goes on costs patience. -/
theorem patience_serve {m : DeviceMessage} (sound : c.Sound) (inStep : InStep c)
    (before : c.phase = .handshaking)
    (lasts : (c.serve (.responding suite store stream) (.arrived m .handshake)).phase =
      .handshaking) :
    (c.serve (.responding suite store stream) (.arrived m .handshake)).patience < c.patience := by
  obtain ⟨payload, w, hstep, hserve⟩ := setsOff_of_lasts before lasts
  have latched : c.verified = true → (c.turn.attempt w).verified = true := by
    intro h
    rw [← hserve]
    exact verified_serve h _
  rw [hserve] at lasts ⊢
  have asks : ∀ {p : EngineCall → Prop}, Work.Consults (.responding suite store stream) p w →
      0 < c.patience → (c.turn.attempt w).patience < c.patience := by
    intro p consults left
    exact patience_lt (rank_lt_of_consults inStep consults lasts) left latched
  -- to an association everything is open until it is finished
  have unverified : c.kind.returning = none → c.verified = false := by
    intro kind
    exact Bool.eq_false_iff.2 fun h => returning_of_verified h kind
  cases hstep with
  | init stage _ =>
    refine asks ((Association.asksFirst_init payload).consults (by decide)) ?_
    rw [patience, stage]
    split <;> decide
  | verify stage kind =>
    have hverified : c.verified = false := by rw [verified, kind]
    rw [patience, patience, verified_of_lasts lasts, hverified, stage]
    simp [Stage.rank]
    omega
  | proceed stage kind =>
    refine asks ((Association.asksFirst_proceed payload).consults (by decide)) ?_
    rw [patience, stage, unverified kind]
    decide
  | proceedReturning stage _ =>
    refine asks ((Reconnection.asksFirst_proceed payload).consults (by decide)) ?_
    rw [patience, stage]
    split <;> decide
  | peerCode stage kind =>
    rcases Association.peerCode_cases (S := .responding suite store stream) payload c.turn with
      ⟨code, h⟩ | h
    · cases (Turn.attempt_of_lasts lasts).symm.trans h
    · rw [Turn.attempt_eq_settle, h, ← Turn.attempt_eq_settle] at lasts latched ⊢
      refine patience_lt (rank_lt_of_consults inStep Association.consults_accept lasts) ?_ latched
      rw [patience, stage, unverified kind]
      decide
  | final _ _ =>
    rw [Turn.attempt_eq_settle] at lasts
    exact absurd lasts (phase_settle_of_stored (Association.stored_final payload before))
  | @resume device _ kind =>
    have hfresh : c.key = none := sound.key_of_returning before kind
    rw [Turn.attempt_eq_settle] at lasts
    exact absurd lasts
      (phase_settle_of_resumed (Reconnection.resumed_resume device payload before hfresh))
  | stray _ => cases Turn.attempt_of_lasts lasts

/-- No move gives patience back. -/
theorem patience_move (m : Move σ τ) (sound : c.Sound) :
    (c.move (.responding suite store stream) m).2.patience ≤ c.patience := by
  obtain ⟨t, ht, hd, _⟩ := upshot_move (S := .responding suite store stream) m sound
  rw [← hd]
  refine patience_le ht.rank_le fun h => ?_
  rw [hd]
  exact verified_run (S := .responding suite store stream) [m] h

/-! ## Runs -/

/-- A new channel is in step with a responder that has done nothing yet. -/
theorem New.inStep (new : New (.responding suite store stream) c) {reconnecting outOfBand : Bool}
    (fresh : c.engine = { Responder.visual with reconnecting, outOfBand }) : InStep c := by
  refine ⟨new.stage.trans (by rw [fresh]; rfl), ?_⟩
  rw [fresh]
  exact ⟨nofun, nofun⟩

/-- A channel whose handshake goes on is in step with its responder, and all the frames that came in have
cost patience. -/
theorem patience_run {c₀ : Channel Responder σ τ} (new : New (.responding suite store stream) c₀)
    {reconnecting outOfBand : Bool}
    (fresh : c₀.engine = { Responder.visual with reconnecting, outOfBand }) {ms : List (Move σ τ)}
    (lasts : (c₀.run (.responding suite store stream) ms).2.phase = .handshaking) :
    InStep (c₀.run (.responding suite store stream) ms).2 ∧
      (c₀.run (.responding suite store stream) ms).2.patience + ms.countP Move.bringsFrame ≤ 3 := by
  induction ms using List.reverseRecOn with
  | nil =>
    refine ⟨new.inStep fresh, Nat.le_trans (Nat.sub_le _ _) ?_⟩
    split <;> decide
  | append_singleton ms m ih =>
    rw [run_concat] at lasts ⊢
    have sound := sound_run (S := .responding suite store stream) ms new.sound
    generalize (c₀.run (.responding suite store stream) ms).2 = c at *
    have before : c.phase = .handshaking := Decidable.byContradiction fun ended =>
      (leads_move (S := .responding suite store stream) m sound).ne_handshaking ended lasts
    obtain ⟨inStep, hcount⟩ := ih before
    constructor
    · obtain ⟨t, hconsulted, hchannel, _⟩ :=
        consulted_move (S := .responding suite store stream) m c
      rw [← hchannel] at lasts ⊢
      exact (InStep.consulted (fun _ => inStep) hconsulted fun _ => before).1 lasts
    rw [List.countP_append, List.countP_singleton]
    cases hframe : m.bringsFrame with
    | false =>
      have hmove : (c.move (.responding suite store stream) m).2.patience ≤ c.patience :=
        patience_move m sound
      simp
      omega
    | true =>
      obtain ⟨f, rfl⟩ : ∃ f, m = .call (.arrived f .handshake) := by
        unfold Move.bringsFrame at hframe
        split at hframe
        · exact ⟨_, rfl⟩
        · cases hframe
      have hserve : (c.move (.responding suite store stream) (.call (.arrived f .handshake))).2 =
          (c.serve (.responding suite store stream) (.arrived f .handshake)).toChannel :=
        call_channel ..
      rw [hserve] at lasts ⊢
      have := patience_serve sound inStep before lasts
      simp
      omega

/-- Once four frames of the handshake have come in to a channel that is driven with a responder, the
handshake is over. -/
theorem over_of_four_frames {c₀ : Channel Responder σ τ}
    (new : New (.responding suite store stream) c₀) {reconnecting outOfBand : Bool}
    (fresh : c₀.engine = { Responder.visual with reconnecting, outOfBand }) {ms : List (Move σ τ)}
    (four : 4 ≤ ms.countP Move.bringsFrame) :
    (c₀.run (.responding suite store stream) ms).2.phase = .established ∨
      (∃ code, (c₀.run (.responding suite store stream) ms).2.phase = .failed code) ∨
      (c₀.run (.responding suite store stream) ms).2.phase = .closed := by
  have ended : (c₀.run (.responding suite store stream) ms).2.phase ≠ .handshaking := by
    intro lasts
    have := (patience_run new fresh lasts).2
    omega
  rcases hphase : (c₀.run (.responding suite store stream) ms).2.phase with _ | _ | code | _
  · exact absurd hphase ended
  · exact .inl rfl
  · exact .inr (.inl ⟨code, rfl⟩)
  · exact .inr (.inr rfl)

/-- The return of the peer, which has to answer a challenge, to a channel with a responder. -/
def expecting : Channel Responder Bench.Vault Bench.Outlet :=
  (Channel.reconnection Bench.responding Bench.peer (some [8, 9]) Responder.visual .acquainted ⟨false⟩
    ⟨fun i => i.toUInt8, 0⟩).2

/-- The peer answers the challenge and goes through the exchange. -/
def visit : List (Move Bench.Vault Bench.Outlet) :=
  [.frame [8, 9, 5], .frame Bench.commitment, .call (.streamFailed .malformedRecord),
    .frame Bench.disclosure]

/-- After three frames the handshake goes on, and a fourth one, which proves nothing, ends it. -/
theorem over_of_unproved_visit :
    New Bench.responding expecting ∧
    (expecting.run Bench.responding visit).2.phase = .handshaking ∧
    4 ≤ (visit ++ [Move.frame []]).countP Move.bringsFrame ∧
    ((expecting.run Bench.responding (visit ++ [Move.frame []])).2.phase = .established ∨
      (∃ code, (expecting.run Bench.responding (visit ++ [Move.frame []])).2.phase = .failed code) ∨
      (expecting.run Bench.responding (visit ++ [Move.frame []])).2.phase = .closed) := by
  have new : New Bench.responding expecting := .reconnection (.made ..)
  have fresh : expecting.engine = { Responder.visual with reconnecting := true, outOfBand := false } :=
    rfl
  have four : 4 ≤ (visit ++ [Move.frame []]).countP Move.bringsFrame := by decide
  exact ⟨new, by decide +kernel, four, over_of_four_frames new fresh four⟩

end Channel

end DevicePairing
