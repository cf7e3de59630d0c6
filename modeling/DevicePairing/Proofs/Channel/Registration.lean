import DevicePairing.Proofs.Channel.Authenticity
import DevicePairing.Proofs.Channel.History
import DevicePairing.Proofs.Crypto.Cipher

/-!
# What a failed association leaves in the store

The last frame of an association brings two secrets into the store, one after the other: first the key,
then the challenge secret. If the store refuses the key, nothing has changed. If it takes the key and
refuses the challenge secret, which it does whenever that is not thirty-two bytes long, the channel fails
and the key stays.

`Association.Registration` is the invariant that carries this along a run, and
`Association.unchanged_and_paired_iff` is the result: a run that ends in failure leaves the store as it
was, and no key is ever stored without its challenge secret, unless a challenge secret was refused after
its key had been stored. Such a refusal replaces the key even of a device that was known before
(`Association.changed_by_refused_secret`).
-/

namespace DevicePairing.Association

variable {ε σ τ : Type} {S : Setting ε σ τ}

/-- A challenge secret that was refused after its key had been stored. -/
def torn (device : Uuid) (key secret : Bytes) (e : StorageError) : List Act :=
  [.keySaved device key (.ok ()), .secretSaved device secret (.error e)]

/-- Every device for which a key was stored had its challenge secret stored too. -/
def Paired (os : List Outcome) : Prop :=
  ∀ device key, .keySaved device key (.ok ()) ∈ Outcome.actsOf os →
    ∃ secret, .secretSaved device secret (.ok ()) ∈ Outcome.actsOf os

/-- An act by which the store refuses a key, which changes nothing. -/
def RefusesKey (a : Act) : Prop := ∃ device key e, a = .keySaved device key (.error e)

variable (V : S.store.View) (s₀ : σ)

/-- How far the registration of a device has come: what was done, what the store holds, and where the
channel is. -/
inductive Registration (os : List Outcome) (c : Channel ε σ τ) : Prop where
  /-- Nothing was stored. -/
  | pending (saved : ∀ a ∈ Outcome.actsOf os, a.isSave = true → RefusesKey a)
    (held : V.held c.store = V.held s₀)
  /-- The key was stored and the challenge secret refused. -/
  | halfway {device : Uuid} {key secret : Bytes} {e : StorageError} (ended : c.phase ≠ .handshaking)
    (saved : ∀ a ∈ Outcome.actsOf os, a.isSave = true → RefusesKey a ∨
      a = .keySaved device key (.ok ()) ∨ a = .secretSaved device secret (.error e))
    (done : torn device key secret e <:+: Outcome.actsOf os)
    (held : ∀ u, V.held c.store u =
      if u = device then { V.held s₀ device with key := some key } else V.held s₀ u)
  /-- Both were stored and the channel established. -/
  | complete {device : Uuid} {key secret : Bytes} (ended : c.phase = .established ∨ c.phase = .closed)
    (saved : ∀ a ∈ Outcome.actsOf os, a.isSave = true → RefusesKey a ∨
      a = .keySaved device key (.ok ()) ∨ a = .secretSaved device secret (.ok ()))
    (done : .secretSaved device secret (.ok ()) ∈ Outcome.actsOf os)

variable {V s₀}

/-- A registration stays where it is as long as nothing is handed to the store. -/
theorem Registration.of_untouched {os : List Outcome} {o : Outcome} {c c' : Channel ε σ τ}
    (h : Registration V s₀ os c) (leads : c.phase.Leads c'.phase)
    (held : V.held c'.store = V.held c.store) (acts : ∀ a ∈ o.acts, a.isSave = false) :
    Registration V s₀ (os ++ [o]) c' := by
  have hsaved : ∀ {P : Act → Prop}, (∀ a ∈ Outcome.actsOf os, a.isSave = true → P a) →
      ∀ a ∈ Outcome.actsOf (os ++ [o]), a.isSave = true → P a := by
    intro P hP a ha hsave
    rw [Outcome.actsOf_append, Outcome.actsOf_singleton] at ha
    rcases List.mem_append.1 ha with ha | ha
    · exact hP a ha hsave
    · rw [acts a ha] at hsave
      cases hsave
  cases h with
  | pending saved held' => exact .pending (hsaved saved) (held.trans held')
  | halfway ended saved done held' =>
    refine .halfway (leads.ne_handshaking ended) (hsaved saved) (Outcome.infix_actsOf_append done) ?_
    intro u
    rw [held, held' u]
  | complete ended saved done =>
    refine .complete (leads.established_or_closed ended) (hsaved saved) ?_
    rw [Outcome.actsOf_append]
    exact List.mem_append_left _ done

/-- The last frame comes in while nothing is stored; what becomes of it is one step of the
registration. -/
theorem Registration.final {os : List Outcome} {c : Channel ε σ τ} {payload : Bytes}
    {r : Except ErrorCode Unit} {t : Turn ε σ τ} {o : Outcome} (phase : c.phase = .handshaking)
    (saved : ∀ a ∈ Outcome.actsOf os, a.isSave = true → RefusesKey a)
    (held : V.held c.store = V.held s₀) (h : Stored S payload c.turn r t)
    (acts : o.acts = t.acts) : Registration V s₀ (os ++ [o]) (t.settle r).toChannel := by
  have hstore : (t.settle r).toChannel.store = t.store := t.store_settle r
  have hacts : Outcome.actsOf (os ++ [o]) = Outcome.actsOf os ++ t.acts := by
    rw [Outcome.actsOf_append, Outcome.actsOf_singleton, acts]
  -- what was handed to the store before this frame was refused
  have hsaved : ∀ {P : Act → Prop}, (∀ a ∈ t.acts, P a) →
      ∀ a ∈ Outcome.actsOf (os ++ [o]), a.isSave = true → RefusesKey a ∨ P a := by
    intro P hP a ha hsave
    rw [hacts] at ha
    rcases List.mem_append.1 ha with ha | ha
    · exact .inl (saved a ha hsave)
    · exact .inr (hP a ha)
  cases h with
  | unnamed _ | keyless _ _ =>
    refine .pending (fun a ha hsave => ?_) ?_
    · rw [hacts] at ha
      exact saved a (by simpa using ha) hsave
    · rw [hstore]
      exact held
  | @keyRefused _ key _ device e s tape kind named keyKept =>
    refine .pending (fun a ha hsave => ?_) ?_
    · rcases hsaved (P := RefusesKey) (fun a ha => ⟨device, key.toBytes, e, by simpa using ha⟩) a ha
        hsave with h | h <;> exact h
    · rw [hstore]
      exact (V.saveKey_error keyKept).trans held
  | @secretRefused _ key _ device e s s' tape tape' kind named keyKept secretKept =>
    have done : torn device key.toBytes (payload.drop deviceIdSize) e <:+:
        Outcome.actsOf (os ++ [o]) := by
      rw [hacts]
      exact (List.suffix_append ..).isInfix
    refine .halfway (fun h => nomatch (Turn.phase_fail_of_handshaking phase _).symm.trans h)
      (hsaved fun a ha => by simpa using ha) done fun u => ?_
    rw [hstore]
    refine (congrFun (V.saveSecret_error secretKept) u).trans ((V.saveKey_ok keyKept u).trans ?_)
    rw [← held]
    rfl
  | @stored _ key _ device s s' tape tape' kind named keyKept secretKept =>
    have saved' : ∀ a ∈ Outcome.actsOf (os ++ [o]), a.isSave = true → RefusesKey a ∨
        a = .keySaved device key.toBytes (.ok ()) ∨
        a = .secretSaved device (payload.drop deviceIdSize) (.ok ()) :=
      hsaved fun a ha => by simpa using ha
    refine .complete (.inl rfl) saved' ?_
    rw [hacts]
    exact List.mem_append_right _ (by simp)

/-- How the registration stands is known after every run in which others leave the store alone. -/
theorem registration_run {c₀ : Channel ε σ τ} (new : c₀.NewAssociation)
    {ms : List (Channel.Move σ τ)} (undisturbed : Channel.Undisturbed V ms) :
    Registration V c₀.store (c₀.run S ms).1 (c₀.run S ms).2 := by
  refine Channel.history_run new.sound undisturbed (.pending (fun _ h => nomatch h) rfl)
    (fun h => h.of_untouched) ?_ (fun returning => ?_)
  · intro os o c payload r t _ h phase stored acts
    cases h with
    | pending saved held => exact .final phase saved held stored acts
    | halfway ended _ _ _ => exact absurd phase ended
    | complete ended _ _ =>
      rw [phase] at ended
      rcases ended with ended | ended <;> cases ended
  · rw [new.returning] at returning
    cases returning

/-- The two halves of an atomic association, and what each of them takes. A run that ends in failure
leaves every secret of every device as it was, exactly if no challenge secret was refused after a key
other than the old one had been stored for its device. And every key that is stored is stored with its
challenge secret, exactly if no challenge secret was refused after its key had been stored. -/
theorem unchanged_and_paired_iff {c₀ : Channel ε σ τ} (new : c₀.NewAssociation)
    {ms : List (Channel.Move σ τ)} (undisturbed : Channel.Undisturbed V ms) :
    (∀ code, (c₀.run S ms).2.phase = .failed code →
      ((∀ u, V.held (c₀.run S ms).2.store u = V.held c₀.store u) ↔
        ∀ device key secret e, torn device key secret e <:+: Outcome.actsOf (c₀.run S ms).1 →
          (V.held c₀.store device).key = some key)) ∧
    (Paired (c₀.run S ms).1 ↔
      ∀ device key secret e, ¬ torn device key secret e <:+: Outcome.actsOf (c₀.run S ms).1) := by
  have key_of_torn : ∀ {device key secret e},
      torn device key secret e <:+: Outcome.actsOf (c₀.run S ms).1 →
      .keySaved device key (.ok ()) ∈ Outcome.actsOf (c₀.run S ms).1 :=
    fun h => h.subset (List.mem_cons_self ..)
  have secret_of_torn : ∀ {device key secret e},
      torn device key secret e <:+: Outcome.actsOf (c₀.run S ms).1 →
      .secretSaved device secret (.error e) ∈ Outcome.actsOf (c₀.run S ms).1 :=
    fun h => h.subset (List.mem_cons_of_mem _ (List.mem_cons_self ..))
  cases registration_run new undisturbed with
  | pending saved held =>
    have hnone : ∀ device key,
        .keySaved device key (.ok ()) ∉ Outcome.actsOf (c₀.run S ms).1 := by
      intro device key h
      obtain ⟨_, _, _, h⟩ := saved _ h rfl
      cases h
    refine ⟨fun code _ => ⟨fun _ device key _ _ h => absurd (key_of_torn h) (hnone device key),
      fun _ u => by rw [held]⟩, ?_⟩
    exact ⟨fun _ device key _ _ h => hnone device key (key_of_torn h),
      fun _ device key h => absurd h (hnone device key)⟩
  | @halfway device key secret e ended saved done held =>
    have honly : ∀ {device' key'},
        .keySaved device' key' (.ok ()) ∈ Outcome.actsOf (c₀.run S ms).1 →
        device' = device ∧ key' = key := by
      intro device' key' h
      rcases saved _ h rfl with ⟨_, _, _, h⟩ | h | h
      · cases h
      · cases h
        exact ⟨rfl, rfl⟩
      · cases h
    refine ⟨fun code _ => ⟨fun hsame device' key' _ _ h => ?_, fun hold u => ?_⟩, ?_⟩
    · obtain ⟨rfl, rfl⟩ := honly (key_of_torn h)
      rw [← hsame device', held device', if_pos rfl]
    · rw [held u]
      split
      · next hu =>
        subst hu
        rw [← hold u key secret e done]
      · rfl
    · refine ⟨fun hpaired => ?_, fun hnone => absurd done (hnone device key secret e)⟩
      obtain ⟨secret', h⟩ := hpaired device key (key_of_torn done)
      rcases saved _ h rfl with ⟨_, _, _, h⟩ | h | h <;> cases h
  | @complete device key secret ended saved done =>
    have hnone : ∀ device' key' secret' e',
        ¬ torn device' key' secret' e' <:+: Outcome.actsOf (c₀.run S ms).1 := by
      intro device' key' secret' e' h
      rcases saved _ (secret_of_torn h) rfl with ⟨_, _, _, h⟩ | h | h <;> cases h
    refine ⟨fun code hcode => ?_, fun _ => hnone, fun _ device' key' h => ?_⟩
    · rw [hcode] at ended
      rcases ended with ended | ended <;> cases ended
    · rcases saved _ h rfl with ⟨_, _, _, h⟩ | h | h
      · cases h
      · cases h
        exact ⟨secret, done⟩
      · cases h

/-! ## Two failures -/

/-- An association up to and including its last frame. -/
def untilStored (frame : Bytes) : List (Channel.Move Bench.Vault Bench.Outlet) :=
  Channel.untilAccepted ++ [.call (.arrived (Channel.sealedFrame frame) .handshake)]

/-- In this run there is nobody else. -/
theorem undisturbed_untilStored (frame : Bytes) (V : Bench.setting.store.View) :
    Channel.Undisturbed V (untilStored frame) := by
  intro other h
  simp [untilStored, Channel.untilAccepted] at h

/-- A last frame that names no device: the channel fails and nothing changes. -/
theorem unchanged_by_unnamed_frame :
    ((Bench.associating .acquainted).run Bench.setting (untilStored [])).2.phase =
      .failed .invalidDeviceId ∧
    (∀ u, (Bench.Vault.view Suite.standard_opens).held
        ((Bench.associating .acquainted).run Bench.setting (untilStored [])).2.store u =
      (Bench.Vault.view Suite.standard_opens).held (Bench.associating .acquainted).store u) ∧
    Paired ((Bench.associating .acquainted).run Bench.setting (untilStored [])).1 := by
  have hfailed : ((Bench.associating .acquainted).run Bench.setting (untilStored [])).2.phase =
      .failed .invalidDeviceId := by
    decide +kernel
  have hnone : (Outcome.actsOf ((Bench.associating .acquainted).run Bench.setting
      (untilStored [])).1).any Act.isSave = false := by
    decide +kernel
  have hkeys : ∀ device key secret e, ¬ torn device key secret e <:+:
      Outcome.actsOf ((Bench.associating .acquainted).run Bench.setting (untilStored [])).1 := by
    intro device key secret e h
    exact List.any_eq_false.1 hnone _ (h.subset (List.mem_cons_self ..)) rfl
  have hnew : (Bench.associating .acquainted).NewAssociation := .visual ..
  have h := unchanged_and_paired_iff (S := Bench.setting)
    (V := Bench.Vault.view Suite.standard_opens) hnew (undisturbed_untilStored [] _)
  exact ⟨hfailed, (h.1 _ hfailed).2 fun device key secret e h => absurd h (hkeys device key secret e),
    h.2.2 hkeys⟩

/-- A last frame whose challenge secret is a byte too short. -/
def shortFrame : Bytes := List.replicate 16 3 ++ List.replicate 31 4

/-- If the challenge secret is too short, the channel fails, and the new key has replaced the one that
went with the secret that is still held. -/
theorem changed_by_refused_secret :
    ((Bench.associating .acquainted).run Bench.setting (untilStored shortFrame)).2.phase =
      .failed .storage ∧
    ¬ ∀ u, (Bench.Vault.view Suite.standard_opens).held
        ((Bench.associating .acquainted).run Bench.setting (untilStored shortFrame)).2.store u =
      (Bench.Vault.view Suite.standard_opens).held (Bench.associating .acquainted).store u := by
  refine ⟨by decide +kernel, fun h => ?_⟩
  have hold : (MemoryStore.secrets .standard Bench.Vault.acquainted.memory Bench.peer).key =
      some (List.replicate 32 1) := by
    decide +kernel
  have hnew : (MemoryStore.secrets .standard ((Bench.associating .acquainted).run Bench.setting
      (untilStored shortFrame)).2.store.memory Bench.peer).key =
      some Bench.agreedKey.toBytes := by
    decide +kernel
  have hsame := congrArg Secrets.key (h Bench.peer)
  have hkeys : some Bench.agreedKey.toBytes = some (List.replicate 32 1) :=
    hnew.symm.trans (hsame.trans hold)
  exact absurd hkeys (by decide)

end DevicePairing.Association
