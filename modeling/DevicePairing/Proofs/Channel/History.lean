import DevicePairing.Proofs.Channel.Soundness
import DevicePairing.Proofs.Store.View

/-!
# What a run does to the store

Statements about what a run leaves in the store relate three things: what was done, what the store holds,
and where the channel is. `Channel.history_run` is the induction for them. Most moves of a run hand
nothing to the store, and for all of these one argument does; what is left are the last frame of an
association and the proof of a device that comes back.
-/

namespace DevicePairing

variable {ε σ τ : Type} {S : Setting ε σ τ}

/-- In none of the moves do others change what the store holds. -/
def Channel.Undisturbed (V : S.store.View) (ms : List (Channel.Move σ τ)) : Prop :=
  ∀ change, Channel.Move.onStore change ∈ ms → ∀ s tape, V.held (change s tape).1 = V.held s

/-- A turn in which no secret is handed to the store leaves everything in it, and none of its acts says
otherwise. -/
theorem Turn.Spares.untouched (V : S.store.View) {c : Channel ε σ τ} {t : Turn ε σ τ}
    (h : Turn.Spares S c.turn t) :
    V.held t.store = V.held c.store ∧ ∀ a ∈ t.acts, a.isSave = false := by
  obtain ⟨done, hdone, hnone⟩ := h.acts
  refine ⟨V.held_of_reads h.reads, ?_⟩
  rw [hdone]
  exact hnone

/-- Acts that stand together in a run stand together in a longer one. -/
theorem Outcome.infix_actsOf_append {os : List Outcome} {o : Outcome} {as : List Act}
    (h : as <:+: Outcome.actsOf os) : as <:+: Outcome.actsOf (os ++ [o]) := by
  rw [Outcome.actsOf_append]
  exact h.trans (List.prefix_append ..).isInfix

namespace Channel

/-- What holds at the start of an undisturbed run holds at its end, if it is kept as long as nothing is
handed to the store, by the last frame of an association, and by the proof of a device that comes
back. -/
theorem history_run {V : S.store.View} {P : List Outcome → Channel ε σ τ → Prop}
    {c₀ : Channel ε σ τ} (sound : c₀.Sound) {ms : List (Move σ τ)} (undisturbed : Undisturbed V ms)
    (start : P [] c₀)
    (untouched : ∀ {os o c c'}, P os c → c.phase.Leads c'.phase →
      V.held c'.store = V.held c.store → (∀ a ∈ o.acts, a.isSave = false) → P (os ++ [o]) c')
    (final : ∀ {os o c payload r t}, c₀.kind.returning = none → P os c → c.phase = .handshaking →
      Association.Stored S payload c.turn r t → o.acts = t.acts →
      P (os ++ [o]) (t.settle r).toChannel)
    (resume : ∀ {os o c device payload r t}, c₀.kind.returning = some device → P os c →
      c.phase = .handshaking → Reconnection.Resumed S device payload c.turn r t →
      o.acts = t.acts → P (os ++ [o]) (t.settle r).toChannel) :
    P (c₀.run S ms).1 (c₀.run S ms).2 := by
  have hcall : ∀ {os c} (i : Call), c.Sound → c.kind.returning = c₀.kind.returning → P os c →
      P (os ++ [(c.call S i).1]) (c.call S i).2 := by
    intro os c i hsound hreturning hP
    have hacts := c.call_acts S i
    rw [c.call_channel S i]
    have hserved := served_serve (S := S) i hsound
    obtain ⟨t, ht⟩ : ∃ t, c.serve S i = t := ⟨_, rfl⟩
    rw [ht] at hacts hserved ⊢
    cases hserved with
    | quiet hquiet =>
      obtain ⟨hheld, hnone⟩ := hquiet.toSpares.untouched V
      exact untouched hP hquiet.leads hheld (by rwa [hacts])
    | final _ phase _ returning stored =>
      rw [Turn.acts_settle] at hacts
      exact final (hreturning.symm.trans returning) hP phase stored hacts
    | resume _ phase _ returning resumed =>
      rw [Turn.acts_settle] at hacts
      exact resume (hreturning.symm.trans returning) hP phase resumed hacts
  have h : (c₀.run S ms).2.Sound ∧ (c₀.run S ms).2.kind.returning = c₀.kind.returning ∧
      P (c₀.run S ms).1 (c₀.run S ms).2 := by
    refine run_induction
      (P := fun os d => d.Sound ∧ d.kind.returning = c₀.kind.returning ∧ P os d)
      ⟨sound, rfl, start⟩ ?_
    rintro os d m hm ⟨hsound, hreturning, hP⟩
    refine ⟨sound_move m hsound, (returning_move m hsound).trans hreturning, ?_⟩
    have idle : ∀ a ∈ Outcome.idle.acts, a.isSave = false := fun _ ha => nomatch ha
    cases m with
    | call i => exact hcall i hsound hreturning hP
    | onStore change => exact untouched hP (.inl rfl) (undisturbed change hm _ _) idle
    | _ => exact untouched hP (.inl rfl) rfl idle
  exact h.2.2

end Channel

end DevicePairing
