import DevicePairing.Bench
import DevicePairing.Proofs.Channel.Constancy
import DevicePairing.Proofs.Channel.Consultation

/-!
# Channel and responder in step

A channel that is driven with a responder keeps a stage, and the responder keeps its own. As long as the
handshake lasts the two are equal, and the responder is never asked for anything out of turn
(`Channel.lockstep_run`), for channels of every kind, responders set up in every way, and whatever stores,
streams and peers do. That a responder is set up for something else than the channel is no exception: the
channel then gives up after the first reply it cannot use.

The channel may fail when the responder has gone on already, so the invariant `Channel.InStep` is one of
the handshake only. Besides the stages it says that the responder still holds what the next call takes,
for a responder that has lost its secret answers as if the call were out of turn.
-/

namespace DevicePairing

/-- Whether an act is a call to the engine that the engine found out of turn. -/
def Act.OutOfTurn (a : Act) : Prop := ∃ call stage, a = .asked call (.error (.invalidState stage))

variable {σ τ : Type}

/-- What a channel works with whose engine is a responder. -/
def Setting.responding (suite : Suite) (store : SecretStore σ) (stream : MessageStream τ) :
    Setting Responder σ τ :=
  { suite, engine := Responder.engine suite, store, stream }

/-- The bench with a responder. -/
def Bench.responding : Setting Responder Vault Outlet :=
  .responding .standard (Vault.store .standard) Outlet.messages

/-- An association that the user confirms, with a given responder. -/
def Bench.meeting (responder : Responder) : Channel Responder Vault Outlet :=
  (Channel.visual responder .empty ⟨false⟩ ⟨fun i => i.toUInt8, 0⟩).2

namespace Channel

variable {suite : Suite} {store : SecretStore σ} {stream : MessageStream τ}
  {c : Channel Responder σ τ} {t : Turn Responder σ τ}

/-- Channel and responder are at the same stage, and the responder can go on from there. -/
structure InStep (c : Channel Responder σ τ) : Prop where
  /-- The stages are the same. -/
  stage : c.stage = c.engine.stage
  /-- The responder holds what the next call takes. -/
  equipped : c.engine.Equipped

/-- Every call keeps channel and responder in step as long as the handshake lasts, and asks for nothing out
of turn. -/
theorem InStep.consulted (inStep : c.phase = .handshaking → InStep c)
    (consulted : Consulted (.responding suite store stream) c t)
    (lasts : t.phase = .handshaking → c.phase = .handshaking) :
    (t.phase = .handshaking → InStep t.toChannel) ∧ ∀ a ∈ t.acts, ¬ a.OutOfTurn := by
  cases consulted with
  | spared unasked engine stage =>
    constructor
    · intro phase
      obtain ⟨hstage, equipped⟩ := inStep (lasts phase)
      exact ⟨(stage phase).trans (hstage.trans (congrArg Responder.stage engine.symm)),
        engine ▸ equipped⟩
    · rintro a ha ⟨call, stage, rfl⟩
      cases unasked _ ha
  | @asked call tape before due once engine reached =>
    obtain ⟨hstage, equipped⟩ := inStep before
    rw [hstage] at due
    have answered := Responder.answered_answer (S := suite) call c.engine tape
    have hengine : t.engine = ((Responder.engine suite).answer call c.engine tape).2.1 := engine
    rw [← hengine] at answered
    constructor
    · intro phase
      obtain ⟨reply, hreply, hreached⟩ := reached phase
      rw [show ((Responder.engine suite).answer call c.engine tape).1 = .ok reply from hreply] at answered
      exact ⟨hreached.trans answered.advances.2.symm, answered.equipped⟩
    · rintro a ha ⟨call', stage, rfl⟩
      have hmem := List.mem_filter.2 ⟨ha, show Act.isAsked (.asked call' _) = true from rfl⟩
      rw [once] at hmem
      obtain ⟨rfl, hrefused⟩ := Act.asked.inj (List.mem_singleton.1 hmem)
      rw [show ((Responder.engine suite).answer call' c.engine tape).1 = _ from hrefused.symm]
        at answered
      exact answered.inTurn due equipped ⟨stage, rfl⟩

/-- How a channel and its responder get on in a run. -/
structure Lockstep (S : Setting Responder σ τ) (c₀ : Channel Responder σ τ) (ms : List (Move σ τ)) :
    Prop where
  /-- As long as the handshake lasts, the channel is at the stage of its responder. -/
  stage : (c₀.run S ms).2.phase = .handshaking → (c₀.run S ms).2.stage = (c₀.run S ms).2.engine.stage
  /-- The responder was never asked for anything out of turn. -/
  inTurn : ∀ a ∈ Outcome.actsOf (c₀.run S ms).1, ¬ a.OutOfTurn

/-- A new channel of any kind and its responder, however it is set up, are in lockstep in every run. -/
theorem lockstep_run {c₀ : Channel Responder σ τ} (new : New (.responding suite store stream) c₀)
    {reconnecting outOfBand : Bool}
    (fresh : c₀.engine = { Responder.visual with reconnecting, outOfBand }) (ms : List (Move σ τ)) :
    Lockstep (.responding suite store stream) c₀ ms := by
  have start : InStep c₀ := by
    refine ⟨new.stage.trans (by rw [fresh]; rfl), ?_⟩
    rw [fresh]
    exact ⟨nofun, nofun⟩
  suffices h : (c₀.run (.responding suite store stream) ms).2.Sound ∧
      ((c₀.run (.responding suite store stream) ms).2.phase = .handshaking →
        InStep (c₀.run (.responding suite store stream) ms).2) ∧
      ∀ a ∈ Outcome.actsOf (c₀.run (.responding suite store stream) ms).1, ¬ a.OutOfTurn from
    ⟨fun phase => (h.2.1 phase).stage, h.2.2⟩
  refine run_induction (P := fun os d => d.Sound ∧ (d.phase = .handshaking → InStep d) ∧
    ∀ a ∈ Outcome.actsOf os, ¬ a.OutOfTurn) ⟨new.sound, fun _ => start, List.forall_mem_nil _⟩ ?_
  rintro os d m - ⟨sound, inStep, inTurn⟩
  obtain ⟨t, hconsulted, hchannel, hacts⟩ := consulted_move (S := .responding suite store stream) m d
  have leads := leads_move (S := .responding suite store stream) m sound
  rw [← hchannel] at leads ⊢
  obtain ⟨hstep, hasked⟩ := InStep.consulted inStep hconsulted fun phase =>
    Decidable.byContradiction fun ended => leads.ne_handshaking ended phase
  refine ⟨hchannel ▸ sound_move m sound, hstep, fun a ha => ?_⟩
  rw [Outcome.actsOf_append, Outcome.actsOf_singleton, ← hacts] at ha
  exact (List.mem_append.1 ha).elim (inTurn a) (hasked a)

/-- An honest peer meets a channel that has somebody to show the code to. -/
def introduction : List (Move Bench.Vault Bench.Outlet) :=
  [.listen (some 0), .frame Bench.commitment, .frame Bench.disclosure]

/-- After both frames of an honest peer the channel and its responder wait for the user. -/
theorem lockstep_introduction :
    New Bench.responding (Bench.meeting Responder.visual) ∧
    Lockstep Bench.responding (Bench.meeting Responder.visual) introduction ∧
    ((Bench.meeting Responder.visual).run Bench.responding introduction).2.phase = .handshaking ∧
    ((Bench.meeting Responder.visual).run Bench.responding introduction).2.engine.stage =
      .verificationNeeded := by
  have new : New Bench.responding (Bench.meeting Responder.visual) := .association (.visual ..)
  have fresh : (Bench.meeting Responder.visual).engine =
      { Responder.visual with reconnecting := false, outOfBand := false } := rfl
  exact ⟨new, lockstep_run new fresh introduction, by decide +kernel, by decide +kernel⟩

end Channel

end DevicePairing
