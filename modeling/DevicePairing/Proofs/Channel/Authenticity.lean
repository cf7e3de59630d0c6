import DevicePairing.Bench
import DevicePairing.Proofs.Channel.Soundness

/-!
# Whom an association believes

The last frame of an association carries the identifier of the peer and its challenge secret, and the
channel stores them together with the key. `Channel.Authenticated` says of a call that whatever it stores
stands in a frame that was sealed under that key, and that a frame which is not sealed does nothing once
there is a key.

`Channel.authenticated_iff` says exactly when this holds, in every run of an association: at every call
but one, a handshake frame that is not sealed and comes in between the acceptance of the code and the
last frame. Such a frame is taken for the last one, and what it says is stored
(`Channel.not_authenticated_plain_frame`).
-/

namespace DevicePairing

variable {ε σ τ : Type}

/-- An act hands nothing to the store but the key and the challenge secret of a given device. -/
def Act.Keeps (device : Uuid) (key secret : Bytes) : Act → Prop
  | .keySaved d k _ => d = device ∧ k = key
  | .secretSaved d s _ => d = device ∧ s = secret
  | _ => True

/-- A frame that names a device consists of the identifier and what follows it. -/
theorem Association.eq_append_of_deviceId? {payload : Bytes} {device : Uuid}
    (h : deviceId? payload = some device) :
    payload = device.toBytes ++ payload.drop deviceIdSize := by
  have hid : Uuid.ofBytes? (payload.take deviceIdSize) = some device :=
    (Option.filter_eq_some_iff.1 h).1
  have hbytes : device.toBytes = payload.take deviceIdSize := by
    obtain ⟨block, hblock, rfl⟩ := Option.map_eq_some_iff.1 hid
    unfold Block.ofBytes? at hblock
    split at hblock
    · cases hblock
      rfl
    · cases hblock
  rw [hbytes, List.take_append_drop]

namespace Channel

variable (S : Setting ε σ τ)

/-! ## What is to be authenticated, and how -/

/-- A call has consequences: something is handed to the store, or the channel becomes established. -/
def Consequential (c : Channel ε σ τ) (i : Call) : Prop :=
  (∃ a ∈ (c.call S i).1.acts, a.isSave = true) ∨
    (c.phase ≠ .established ∧ (c.call S i).2.phase = .established)

/-- A call is a handshake frame, sealed under the key of the channel, and opens to the identifier of a
device followed by a secret; nothing else is handed to the store, and if the channel becomes established
the store has taken both. -/
def Vouched (c : Channel ε σ τ) (i : Call) : Prop :=
  ∃ m key device secret, i = .arrived m .handshake ∧ m.encrypted = true ∧ c.key = some key ∧
    key.decrypt S.suite m.payload = .ok (device.toBytes ++ secret) ∧
    (∀ a ∈ (c.call S i).1.acts, a.Keeps device key.toBytes secret) ∧
    ((c.call S i).2.phase = .established →
      .keySaved device key.toBytes (.ok ()) ∈ (c.call S i).1.acts ∧
      .secretSaved device secret (.ok ()) ∈ (c.call S i).1.acts)

/-- A call has consequences only if it is vouched for, and a handshake frame that is not sealed does
nothing once there is a key. -/
def Authenticated (c : Channel ε σ τ) (i : Call) : Prop :=
  (Consequential S c i → Vouched S c i) ∧
    ∀ m, i = .arrived m .handshake → m.encrypted = false → c.key ≠ none →
      c.call S i = (.idle, c)

variable {S} {c : Channel ε σ τ}

/-- A quiet call hands nothing to the store and establishes nothing, so it has no consequences. -/
theorem not_consequential_of_quiet {i : Call} (h : Turn.Quiet S c.turn (c.serve S i)) :
    ¬ Consequential S c i := by
  rintro (⟨a, ha, hsave⟩ | ⟨hbefore, hafter⟩)
  · rw [call_acts] at ha
    obtain ⟨done, hdone, hnone⟩ := h.acts
    rw [hdone] at ha
    rw [hnone a (by simpa using ha)] at hsave
    cases hsave
  · rw [call_channel] at hafter
    exact hbefore (h.established hafter)

/-- Once the handshake of an association is finished, the next frame is taken for the last one. -/
theorem handle_of_finished {t : Turn ε σ τ} (payload : Bytes) (kind : t.kind.returning = none)
    (stage : t.stage = .finished) :
    Turn.handle S payload t = Association.final S payload t := by
  rcases hkind : t.kind with ⟨verification, pendingKey, former⟩ | _
  · unfold Turn.handle
    rw [Work.bind_apply, Work.get_apply]
    simp only [hkind]
    unfold Association.handle
    rw [Work.bind_apply, Work.get_apply]
    simp only [stage]
  · rw [hkind] at kind
    cases kind

/-- The last frame comes to nothing unless a key waits for it and it names a device. Then the key and
the rest of the frame are all that is handed to the store, and both are taken if the channel becomes
established. -/
theorem keeps_of_stored {payload : Bytes} {r : Except ErrorCode Unit} {t : Turn ε σ τ}
    (phase : c.phase = .handshaking) (h : Association.Stored S payload c.turn r t) :
    Turn.Quiet S c.turn (t.settle r) ∨ ∃ key device, c.kind.pendingKey = some key ∧
      Association.deviceId? payload = some device ∧
      (∀ a ∈ (t.settle r).acts,
        a.Keeps device key.toBytes (payload.drop Association.deviceIdSize)) ∧
      ((t.settle r).phase = .established →
        .keySaved device key.toBytes (.ok ()) ∈ (t.settle r).acts ∧
        .secretSaved device (payload.drop Association.deviceIdSize) (.ok ()) ∈ (t.settle r).acts) := by
  have hpending : ∀ {verification key former},
      c.kind = .association verification (some key) former → c.kind.pendingKey = some key := by
    intro verification key former hkind
    rw [hkind]
    rfl
  cases h with
  | unnamed _ | keyless _ _ => exact .inl (.fail c.turn _)
  | @keyRefused _ key _ device _ _ _ kind named _ =>
    refine .inr ⟨key, device, hpending kind, named, ?_, fun h => absurd h (Turn.phase_fail_ne_established phase _)⟩
    intro a ha
    rw [Turn.acts_settle] at ha
    obtain rfl : a = _ := by simpa using ha
    exact ⟨rfl, rfl⟩
  | @secretRefused _ key _ device _ _ _ _ _ kind named _ _ =>
    refine .inr ⟨key, device, hpending kind, named, ?_, fun h => absurd h (Turn.phase_fail_ne_established phase _)⟩
    intro a ha
    rw [Turn.acts_settle] at ha
    obtain rfl | rfl : a = _ ∨ a = _ := by simpa using ha
    all_goals exact ⟨rfl, rfl⟩
  | @stored _ key _ device _ _ _ _ kind named _ _ =>
    refine .inr ⟨key, device, hpending kind, named, ?_, fun _ => ?_⟩
    · intro a ha
      obtain rfl | rfl : a = _ ∨ a = _ := by simpa [Turn.settle] using ha
      all_goals exact ⟨rfl, rfl⟩
    · simp [Turn.settle]

/-- What is stored on the word of the last frame, if it was sealed, is what it says. -/
theorem vouched_of_stored {m : DeviceMessage} {payload : Bytes} {r : Except ErrorCode Unit}
    {t : Turn ε σ τ} (sound : c.Sound) (phase : c.phase = .handshaking)
    (sealed : m.encrypted = true) (opens : c.Opens S m payload)
    (served : c.serve S (.arrived m .handshake) = t.settle r)
    (stored : Association.Stored S payload c.turn r t)
    (h : Consequential S c (.arrived m .handshake)) : Vouched S c (.arrived m .handshake) := by
  obtain ⟨key, hkey, hopened⟩ := (if_pos sealed).mp opens
  rcases keeps_of_stored phase stored with hquiet | ⟨key', device, hpending, hnamed, hacts, hdone⟩
  · rw [← served] at hquiet
    exact absurd h (not_consequential_of_quiet hquiet)
  obtain rfl : key' = key := by
    rw [sound.pending phase, hkey] at hpending
    exact Option.some.inj hpending.symm
  refine ⟨m, key', device, payload.drop Association.deviceIdSize, rfl, sealed, hkey, ?_, ?_, ?_⟩
  · rw [hopened, ← Association.eq_append_of_deviceId? hnamed]
  · rw [call_acts, served]
    exact hacts
  · rw [call_channel, call_acts, served]
    exact hdone

/-- In an association, a call is authenticated unless it is a plain handshake frame that comes in while
there is a key and the handshake goes on; such a call never is. -/
theorem authenticated_iff_of_sound (sound : c.Sound) (returning : c.kind.returning = none) (i : Call) :
    Authenticated S c i ↔ ∀ m, i = .arrived m .handshake → m.encrypted = false → c.key ≠ none →
      c.phase ≠ .handshaking := by
  constructor
  · rintro ⟨-, hidle⟩ m rfl hplain hkey hphase
    have hserved : c.serve S (.arrived m .handshake) =
        (Association.final S m.payload c.turn).2.settle (Association.final S m.payload c.turn).1 := by
      show c.turn.takeHandshake S m = _
      unfold Turn.takeHandshake
      rw [if_pos (show c.turn.phase.isHandshaking = true from Phase.isHandshaking_iff.2 hphase),
        if_neg (by simp [hplain]),
        Turn.attempt_eq_settle, handle_of_finished m.payload returning (sound.finished hkey)]
    have hover := phase_settle_of_stored (Association.stored_final (S := S) m.payload
      (t := c.turn) hphase)
    rw [← hserved] at hover
    have hsame : (c.call S (.arrived m .handshake)).2 = c :=
      congrArg Prod.snd (hidle m rfl hplain hkey)
    rw [call_channel] at hsame
    exact hover ((congrArg Channel.phase hsame).trans hphase)
  · intro hcond
    refine ⟨fun h => ?_, fun m hm hplain hkey => ?_⟩
    · obtain ⟨t, ht⟩ : ∃ t, c.serve S i = t := ⟨_, rfl⟩
      have hserved := served_serve (S := S) i sound
      rw [ht] at hserved
      cases hserved with
      | quiet hquiet =>
        rw [← ht] at hquiet
        exact absurd h (not_consequential_of_quiet hquiet)
      | @final m payload r t opens phase stage _ stored =>
        by_cases hsealed : m.encrypted = true
        · exact vouched_of_stored sound phase hsealed opens ht stored h
        -- a plain frame is no threat as long as there is no key that waits for it
        · have hkey : c.key = none := by
            by_cases hkey : c.key = none
            · exact hkey
            · exact absurd phase (hcond m rfl (by simpa using hsealed) hkey)
          refine absurd h (not_consequential_of_quiet ?_)
          rw [ht]
          rcases keeps_of_stored phase stored with hquiet | ⟨key, _, hpending, _⟩
          · exact hquiet
          · rw [sound.pending phase, hkey] at hpending
            cases hpending
      | resume _ _ _ hreturning _ =>
        rw [returning] at hreturning
        cases hreturning
    · subst hm
      have hover : ¬ c.turn.phase.isHandshaking = true :=
        fun h => hcond m rfl hplain hkey (Phase.isHandshaking_iff.1 h)
      have hserved : c.turn.takeHandshake S m = c.turn := by
        unfold Turn.takeHandshake
        rw [if_neg hover]
      show ((⟨.ok (), (c.turn.takeHandshake S m).acts, (c.turn.takeHandshake S m).events⟩ : Outcome),
        (c.turn.takeHandshake S m).toChannel) = _
      rw [hserved]
      rfl

/-- At every moment of every run of an association, a call is authenticated exactly if it is no plain
handshake frame that comes in while there is a key and the handshake goes on. -/
theorem authenticated_iff {c₀ : Channel ε σ τ} (new : NewAssociation c₀) (ms : List (Move σ τ))
    (i : Call) :
    Authenticated S (c₀.run S ms).2 i ↔
      ∀ m, i = .arrived m .handshake → m.encrypted = false → (c₀.run S ms).2.key ≠ none →
        (c₀.run S ms).2.phase ≠ .handshaking :=
  authenticated_iff_of_sound (sound_run ms new.sound)
    ((returning_run ms new.sound).trans new.returning) i

/-! ## A last frame that was not sealed -/

/-- What happens to an association up to the acceptance of the code. -/
def untilAccepted : List (Move Bench.Vault Bench.Outlet) :=
  [.listen (some 0), .call (.arrived ⟨none, false, [1]⟩ .handshake),
    .call (.arrived ⟨none, false, [2]⟩ .handshake), .call .accept]

/-- A last frame: an identifier and a secret, each a single byte repeated. -/
def lastFrame : Bytes := List.replicate 16 3 ++ List.replicate 32 4

/-- A frame sealed under the key. -/
def sealedFrame (plain : Bytes) : DeviceMessage :=
  match Bench.agreedKey.sealWith .standard ⟨List.replicate 12 0, rfl⟩ plain with
  | .ok sealed => ⟨none, true, sealed⟩
  | .error _ => ⟨none, true, []⟩

/-- The last frame of an association comes in sealed under the key, and the call that it is has consequences and
is authenticated. -/
theorem authenticated_sealed_frame :
    (((Bench.associating .empty).run Bench.setting untilAccepted).2.call Bench.setting
      (.arrived (sealedFrame lastFrame) .handshake)).2.phase = .established ∧
    Authenticated Bench.setting ((Bench.associating .empty).run Bench.setting untilAccepted).2
      (.arrived (sealedFrame lastFrame) .handshake) := by
  refine ⟨by decide +kernel, (authenticated_iff (.visual ..) untilAccepted _).2 ?_⟩
  have hsealed : (sealedFrame lastFrame).encrypted = true := by
    unfold sealedFrame
    split <;> rfl
  rintro m hm hplain
  cases hm
  rw [hsealed] at hplain
  cases hplain

/-- The same frame, not sealed: it comes from anyone who can write to the link, and it is stored. -/
theorem not_authenticated_plain_frame :
    ¬ Authenticated Bench.setting
      ((Bench.associating .empty).run Bench.setting untilAccepted).2
      (.arrived ⟨none, false, lastFrame⟩ .handshake) := by
  rintro ⟨hvouched, -⟩
  have hestablished : (((Bench.associating .empty).run Bench.setting untilAccepted).2.call
      Bench.setting (.arrived ⟨none, false, lastFrame⟩ .handshake)).2.phase = .established := by
    decide +kernel
  have hbefore : ((Bench.associating .empty).run Bench.setting untilAccepted).2.phase ≠
      .established := by
    decide +kernel
  obtain ⟨m, _, _, _, hm, hsealed, _⟩ := hvouched (.inr ⟨hbefore, hestablished⟩)
  cases hm
  cases hsealed

end Channel

end DevicePairing
