import DevicePairing.Bench
import DevicePairing.Proofs.Channel.History
import DevicePairing.Proofs.Crypto.Cipher

/-!
# What a failed reconnection leaves in the store

When a device comes back, its key is replaced. The new key is stored before the answer is sent from
which the peer learns that the exchange succeeded, so there are two ways to fail around this moment. If
the store refuses the key, nothing has changed. If the stream refuses the answer, the channel fails and
the new key stays.

`Reconnection.Rotation` is the invariant that carries this along a run, and `Reconnection.unchanged_iff`
is the result: a run that ends in failure leaves the store as it was, unless an answer could not be sent
after a key was stored. Then the key of that one device is replaced
(`Reconnection.changed_by_unsent_answer`).
-/

namespace DevicePairing

variable {ε σ τ : Type} {S : Setting ε σ τ}

namespace Reconnection

/-- An answer to the peer that could not be sent after a new key had been stored. -/
def unsent (device : Uuid) (key next : Bytes) (done : List StreamAct) (e : StreamError) : List Act :=
  [.keySaved device key (.ok ()), .wrote ⟨none, false, next⟩ .handshake done (.error e)]

variable (V : S.store.View) (device : Uuid) (s₀ : σ)

/-- How far the rotation of a key has come: what was done, what the store holds, and where the channel
is. -/
inductive Rotation (os : List Outcome) (c : Channel ε σ τ) : Prop where
  /-- No key was stored. -/
  | pending (saved : ∀ key, .keySaved device key (.ok ()) ∉ Outcome.actsOf os)
    (held : V.held c.store = V.held s₀)
  /-- A key was stored, but the answer could not be sent. -/
  | unanswered {key next : Bytes} {done : List StreamAct} {e : StreamError}
    (ended : c.phase ≠ .handshaking)
    (saved : ∀ key', .keySaved device key' (.ok ()) ∈ Outcome.actsOf os → key' = key)
    (written : unsent device key next done e <:+: Outcome.actsOf os)
    (held : ∀ u, V.held c.store u =
      if u = device then { V.held s₀ device with key := some key } else V.held s₀ u)
  /-- A key was stored and the channel established. -/
  | answered (ended : c.phase = .established ∨ c.phase = .closed)

variable {V device s₀}

/-- A rotation stays where it is as long as nothing is handed to the store. -/
theorem Rotation.of_untouched {os : List Outcome} {o : Outcome} {c c' : Channel ε σ τ}
    (h : Rotation V device s₀ os c) (leads : c.phase.Leads c'.phase)
    (held : V.held c'.store = V.held c.store) (acts : ∀ a ∈ o.acts, a.isSave = false) :
    Rotation V device s₀ (os ++ [o]) c' := by
  have hsaved : ∀ {key}, .keySaved device key (.ok ()) ∈ Outcome.actsOf (os ++ [o]) →
      .keySaved device key (.ok ()) ∈ Outcome.actsOf os := by
    intro key hkey
    rw [Outcome.actsOf_append, Outcome.actsOf_singleton] at hkey
    rcases List.mem_append.1 hkey with hkey | hkey
    · exact hkey
    · exact nomatch acts _ hkey
  cases h with
  | pending saved held' => exact .pending (fun key hkey => saved key (hsaved hkey)) (held.trans held')
  | unanswered ended saved written held' =>
    refine .unanswered (leads.ne_handshaking ended) (fun key' hkey => saved key' (hsaved hkey))
      (Outcome.infix_actsOf_append written) fun u => ?_
    rw [held, held' u]
  | answered ended => exact .answered (leads.established_or_closed ended)

/-- The proof of the peer comes in while no key is stored; what becomes of it is one step of the
rotation. -/
theorem Rotation.resume {os : List Outcome} {c : Channel ε σ τ} {payload : Bytes}
    {r : Except ErrorCode Unit} {t : Turn ε σ τ} {o : Outcome} (phase : c.phase = .handshaking)
    (saved : ∀ key, .keySaved device key (.ok ()) ∉ Outcome.actsOf os)
    (held : V.held c.store = V.held s₀) (h : Resumed S device payload c.turn r t)
    (acts : o.acts = t.acts) : Rotation V device s₀ (os ++ [o]) (t.settle r).toChannel := by
  have hstore : (t.settle r).toChannel.store = t.store := t.store_settle r
  have hacts : Outcome.actsOf (os ++ [o]) = Outcome.actsOf os ++ t.acts := by
    rw [Outcome.actsOf_append, Outcome.actsOf_singleton, acts]
  cases h with
  | refused h =>
    obtain ⟨hheld, hnone⟩ := h.toSpares.untouched V
    refine .pending (fun key hkey => ?_) (by rw [hstore, hheld, held])
    rw [hacts] at hkey
    rcases List.mem_append.1 hkey with hkey | hkey
    · exact saved key hkey
    · exact nomatch hnone _ hkey
  | @keyRefused key next t' e s tape agreed keyKept =>
    obtain ⟨hheld, hnone⟩ := agreed.prepares.toSpares.untouched V
    refine .pending (fun key' hkey => ?_) ?_
    · rw [hacts] at hkey
      rcases List.mem_append.1 hkey with hkey | hkey
      · exact saved key' hkey
      rcases List.mem_append.1 hkey with hkey | hkey
      · exact nomatch hnone _ hkey
      · simp at hkey
    · rw [hstore]
      exact (V.saveKey_error keyKept).trans (hheld.trans held)
  | @unanswered key next t' e s tape done stream agreed keyKept written =>
    obtain ⟨hheld, hnone⟩ := agreed.prepares.toSpares.untouched V
    have done : unsent device key.toBytes next done e <:+: Outcome.actsOf (os ++ [o]) := by
      rw [hacts]
      exact ((List.suffix_append ..).trans (List.suffix_append ..)).isInfix
    refine .unanswered ?_ (fun key' hkey => ?_) done fun u => ?_
    · refine fun h => nomatch (Turn.phase_fail_of_handshaking ?_ _).symm.trans h
      exact agreed.prepares.phase.trans phase
    · rw [hacts] at hkey
      rcases List.mem_append.1 hkey with hkey | hkey
      · exact absurd hkey (saved key')
      rcases List.mem_append.1 hkey with hkey | hkey
      · exact nomatch hnone _ hkey
      · simpa using hkey
    · rw [hstore]
      refine (V.saveKey_ok keyKept u).trans ?_
      rw [hheld, held]
  | resumed agreed keyKept written =>
    exact .answered (.inl rfl)

/-- How the rotation stands is known after every run in which others leave the store alone. -/
theorem rotation_run {c₀ : Channel ε σ τ} (new : Channel.NewReconnection S device c₀)
    {ms : List (Channel.Move σ τ)} (undisturbed : Channel.Undisturbed V ms) :
    Rotation V device c₀.store (c₀.run S ms).1 (c₀.run S ms).2 := by
  refine Channel.history_run new.sound undisturbed (.pending (fun _ h => nomatch h) rfl)
    (fun h => h.of_untouched) (fun returning => ?_) ?_
  · rw [new.returning] at returning
    cases returning
  · intro os o c device' payload r t returning h phase resumed acts
    obtain rfl : device' = device := by
      rw [new.returning] at returning
      exact Option.some.inj returning.symm
    cases h with
    | pending saved held => exact .resume phase saved held resumed acts
    | unanswered ended _ _ _ => exact absurd phase ended
    | answered ended =>
      rw [phase] at ended
      rcases ended with ended | ended <;> cases ended

/-- A reconnection that ends in failure leaves every secret of every device as it was, exactly if no
answer failed to be sent after a key other than the old one had been stored. -/
theorem unchanged_iff {c₀ : Channel ε σ τ} (new : Channel.NewReconnection S device c₀)
    {ms : List (Channel.Move σ τ)} (undisturbed : Channel.Undisturbed V ms) {code : ErrorCode}
    (failed : (c₀.run S ms).2.phase = .failed code) :
    (∀ u, V.held (c₀.run S ms).2.store u = V.held c₀.store u) ↔
      ∀ key next done e, unsent device key next done e <:+: Outcome.actsOf (c₀.run S ms).1 →
        (V.held c₀.store device).key = some key := by
  have stored_of_unsent : ∀ {key next done e},
      unsent device key next done e <:+: Outcome.actsOf (c₀.run S ms).1 →
      .keySaved device key (.ok ()) ∈ Outcome.actsOf (c₀.run S ms).1 :=
    fun h => h.subset (List.mem_cons_self ..)
  cases rotation_run new undisturbed with
  | pending saved held =>
    exact ⟨fun _ key _ _ _ h => absurd (stored_of_unsent h) (saved key), fun _ u => by rw [held]⟩
  | @unanswered key next done e ended saved written held =>
    constructor
    · intro hsame key' _ _ _ h
      obtain rfl := saved key' (stored_of_unsent h)
      rw [← hsame device, held device, if_pos rfl]
    · intro hold u
      rw [held u]
      split
      · next hu =>
        subst hu
        rw [← hold key next done e written]
      · rfl
  | answered ended =>
    rw [failed] at ended
    rcases ended with ended | ended <;> cases ended

/-! ## Two failures -/

/-- The frames of a reconnection; before the last one the stream may change. -/
def untilProof (change : Bench.Outlet → Bench.Outlet) :
    List (Channel.Move Bench.Vault Bench.Outlet) :=
  [.call (.arrived ⟨none, false, [1]⟩ .handshake), .call (.arrived ⟨none, false, [2]⟩ .handshake),
    .onStream change, .call (.arrived ⟨none, false, [3]⟩ .handshake)]

/-- In this run there is nobody else who changes the store. -/
theorem undisturbed_untilProof (change : Bench.Outlet → Bench.Outlet)
    (V : Bench.setting.store.View) : Channel.Undisturbed V (untilProof change) := by
  intro other h
  simp [untilProof] at h

/-- A reconnection over a store from which the old key cannot be read. -/
def unreadable : Channel Bench.Script Bench.Vault Bench.Outlet :=
  Bench.returning { Bench.Vault.acquainted with readsFail := true }

/-- Whether an act is a write that failed. -/
def failedWrite : Act → Bool
  | .wrote _ _ _ (.error _) => true
  | _ => false

/-- If the old key cannot be read, the channel fails and nothing changes. -/
theorem unchanged_unreadable :
    (unreadable.run Bench.setting (untilProof id)).2.phase = .failed .storage ∧
    ∀ u, (Bench.Vault.view Suite.standard_opens).held
        (unreadable.run Bench.setting (untilProof id)).2.store u =
      (Bench.Vault.view Suite.standard_opens).held unreadable.store u := by
  have hfailed : (unreadable.run Bench.setting (untilProof id)).2.phase = .failed .storage := by
    decide +kernel
  have hsent : (Outcome.actsOf (unreadable.run Bench.setting (untilProof id)).1).any failedWrite =
      false := by
    decide +kernel
  refine ⟨hfailed, (unchanged_iff (V := Bench.Vault.view Suite.standard_opens)
    (.made none _ _ _ _) (undisturbed_untilProof id _) hfailed).2 ?_⟩
  intro key next done e h
  have hwrote := h.subset (List.mem_cons_of_mem _ (List.mem_cons_self ..))
  exact nomatch (List.any_eq_false.1 hsent) _ hwrote

/-- If the stream refuses the answer, the channel fails and the new key has replaced the old one. -/
theorem changed_by_unsent_answer :
    ((Bench.returning .acquainted).run Bench.setting (untilProof fun _ => ⟨true⟩)).2.phase =
      .failed .invalidMessage ∧
    ¬ ∀ u, (Bench.Vault.view Suite.standard_opens).held
        ((Bench.returning .acquainted).run Bench.setting (untilProof fun _ => ⟨true⟩)).2.store u =
      (Bench.Vault.view Suite.standard_opens).held (Bench.returning .acquainted).store u := by
  refine ⟨by decide +kernel, fun h => ?_⟩
  have hold : (MemoryStore.secrets .standard Bench.Vault.acquainted.memory Bench.peer).key =
      some (List.replicate 32 1) := by
    decide +kernel
  have hnew : (MemoryStore.secrets .standard ((Bench.returning .acquainted).run Bench.setting
      (untilProof fun _ => ⟨true⟩)).2.store.memory Bench.peer).key =
      some Bench.agreedKey.toBytes := by
    decide +kernel
  have hsame := congrArg Secrets.key (h Bench.peer)
  have hkeys : some Bench.agreedKey.toBytes = some (List.replicate 32 1) :=
    hnew.symm.trans (hsame.trans hold)
  exact absurd hkeys (by decide)

end Reconnection

end DevicePairing
