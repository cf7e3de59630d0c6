import DevicePairing.Proofs.Channel.Confirmation
import DevicePairing.Proofs.Channel.Sequence

/-!
# The cipher for codes is used once

The out-of-band cipher has one nonce for each direction and keeps no count of what it has encrypted, so it
must not encrypt twice. Nothing in the cipher sees to that; what does is the order of the handshake.
`Association.sealed_once_run` says that whatever the engine, the store and the stream of an out-of-band
association do, the association encrypts one code at most, and under the cipher whose token was pushed.
Which code this is, and whether there is one, is up to the engine alone: it is the code that the engine
reports for the second frame.

A code is encrypted before the stage moves on and before it is sent, and either of these may give up. But a
step that gives up ends the handshake, and one that succeeds has reached a stage at which the second frame is
not due any more (`Channel.Coded`). The invariant `Association.Sealing` therefore looks at the stage: as long
as the second frame may still be due, nothing was encrypted.
-/

namespace DevicePairing

/-- The code an engine reports with its answer to the second frame, for the peer to confirm. -/
def Reply.reported (reply : Reply) : Option Bytes :=
  if reply.stage = .oobVerificationNeeded then reply.oobCode else none

namespace Act

/-- The cipher and the code of an encryption. -/
def sealing? : Act → Option (OutOfBand.Cipher × Bytes)
  | .codeSealed cipher code _ => some (cipher, code)
  | _ => none

/-- The code of an answer to the second frame. -/
def report? : Act → Option Bytes
  | .asked (.proceed _) (.ok reply) => reply.reported
  | _ => none

/-- The codes that were encrypted, each with its cipher. -/
def sealings (acts : List Act) : List (OutOfBand.Cipher × Bytes) := acts.filterMap sealing?

/-- The codes that were reported. -/
def reports (acts : List Act) : List Bytes := acts.filterMap report?

/-- Codes are encrypted one after another. -/
@[simp] theorem sealings_append (acts acts' : List Act) :
    sealings (acts ++ acts') = sealings acts ++ sealings acts' := List.filterMap_append

/-- Codes are reported one after another. -/
@[simp] theorem reports_append (acts acts' : List Act) :
    reports (acts ++ acts') = reports acts ++ reports acts' := List.filterMap_append

end Act

variable {ε σ τ : Type} {S : Setting ε σ τ}

/-! ## Steps that have to do with codes, and steps that have not -/

/-- The codes encrypted and the codes reported in a turn so far. -/
def Turn.codes (t : Turn ε σ τ) : List (OutOfBand.Cipher × Bytes) × List Bytes :=
  (Act.sealings t.acts, Act.reports t.acts)

/-- An act joins the codes if it encrypts one or reports one. -/
theorem Turn.codes_note (a : Act) (t : Turn ε σ τ) :
    (t.note a).codes = (t.codes.1 ++ a.sealing?.toList, t.codes.2 ++ a.report?.toList) := by
  have hsealing : Act.sealings [a] = a.sealing?.toList := by
    rcases h : a.sealing? with _ | _ <;> simp [Act.sealings, h]
  have hreport : Act.reports [a] = a.report?.toList := by
    rcases h : a.report? with _ | _ <;> simp [Act.reports, h]
  unfold codes note
  rw [Act.sealings_append, Act.reports_append, hsealing, hreport]

/-- Any other act leaves the codes as they are. -/
theorem Turn.codes_note_of_none {a : Act} (sealing : a.sealing? = none) (report : a.report? = none)
    (t : Turn ε σ τ) : (t.note a).codes = t.codes := by
  rw [codes_note, sealing, report]
  simp

/-- To give up neither encrypts a code nor reports one. -/
@[simp] theorem Turn.codes_settle (r : Except ErrorCode Unit) (t : Turn ε σ τ) :
    (t.settle r).codes = t.codes := by
  simp [codes]

/-- Codes are reported by the engine, and encrypted for the peer; nothing else has to do with them. -/
theorem Turn.dependsOn_codes : DependsOn S [.ask, .sealCode] codes := by
  rintro x t t' h apart
  cases h <;> first | rfl | exact absurd (by decide) apart | exact codes_note_of_none rfl rfl _

namespace Work

/-- The engine reports a code or it does not; none is encrypted by asking. -/
theorem codes_ask (call : EngineCall) (t : Turn ε σ τ) :
    (ask S call t).2.codes = (t.codes.1, t.codes.2 ++
      (Act.report? (.asked call (S.engine.answer call t.engine t.tape).1)).toList) := by
  refine (Turn.codes_note (.asked call (S.engine.answer call t.engine t.tape).1) _).trans ?_
  exact Prod.ext (List.append_nil _) rfl

/-- A code that is encrypted is noted with its cipher, whatever comes of it. -/
theorem codes_sealCode (cipher : OutOfBand.Cipher) (code : Bytes) (t : Turn ε σ τ) :
    (sealCode S cipher code t).2.codes = (t.codes.1 ++ [(cipher, code)], t.codes.2) := by
  refine (Turn.codes_note (.codeSealed cipher code (cipher.encode S.suite code)) t).trans ?_
  exact Prod.ext rfl (List.append_nil _)

/-- A question about anything but the second frame is not answered with a code, so a step that begins with one and
encrypts nothing afterwards has nothing to do with codes. -/
theorem AsksFirst.leaves_codes {call : EngineCall} {touches : List Touch} {w : Work ε σ τ Unit}
    (h : AsksFirst S call touches w) (other : ∀ frame, call ≠ .proceed frame)
    (apart : ∀ x ∈ touches, x ∉ [Touch.ask, .sealCode]) : Leaves Turn.codes w := by
  obtain ⟨rest, rfl, hrest⟩ := h
  intro t
  have hasked : (ask S call t).2.codes = t.codes := by
    rw [codes_ask]
    cases call with
    | proceed frame => exact absurd rfl (other frame)
    | _ => exact Prod.ext rfl (List.append_nil _)
  rw [bind_apply]
  rcases ha : ask S call t with ⟨_ | reply, t'⟩
  all_goals rw [ha] at hasked
  · exact hasked
  · have hafter : ∀ x ∈ .stage :: touches, x ∉ [Touch.ask, .sealCode] :=
      List.forall_mem_cons.2 ⟨by decide, apart⟩
    exact ((hrest reply).1.leaves Turn.dependsOn_codes hafter t').trans hasked

end Work

namespace Association

/-- For the first frame no code is reported. -/
theorem codes_init (payload : Bytes) : Work.Leaves Turn.codes (init S payload) :=
  (asksFirst_init payload).leaves_codes (fun _ => nofun) (by decide)

/-- To accept the code reports no other. -/
theorem codes_accept : Work.Leaves Turn.codes (accept S) :=
  asksFirst_accept.leaves_codes (fun _ => nofun) (by decide)

/-- The peer's code is compared with ours, and none of the two is encrypted. -/
theorem codes_peerCode (payload : Bytes) : Work.Leaves Turn.codes (peerCode S payload) := by
  intro t
  rcases peerCode_cases (S := S) payload t with ⟨code, h⟩ | h
  · rw [h]
  · rw [h]
    exact codes_accept t

/-- With the last frame codes are of no interest any more. -/
theorem codes_final (payload : Bytes) : Work.Leaves Turn.codes (final S payload) :=
  (footprint_final payload).leaves Turn.dependsOn_codes (by decide)

/-- The code that was reported is encrypted, whatever happens to it then. -/
theorem codes_sendCode (cipher : OutOfBand.Cipher) (pendingKey : Option SessionKey)
    (device : Option Uuid) (reply : Reply) (t : Turn ε σ τ) :
    (sendCode S cipher pendingKey device reply t).2.codes =
      (t.codes.1 ++ reply.reported.toList.map (cipher, ·), t.codes.2) := by
  unfold sendCode Reply.reported
  by_cases hstage : reply.stage = .oobVerificationNeeded
  case neg => simp [hstage, Work.bind_apply, Work.throw_apply]
  rcases hcode : reply.oobCode with _ | code
  · simp [hstage, Work.bind_apply, Work.require, Work.throw_apply]
  have hrest : ∀ encrypted, Work.Footprint S [.kind, .stage, .write] (do
      Work.setKind (.association (.outOfBand cipher (some code)) pendingKey device)
      Work.advance reply.stage
      Work.sendPlain S encrypted : Work ε σ τ Unit) := fun encrypted =>
    (Work.footprint_setKind _).bind fun _ => (Work.footprint_advance _).bind fun _ =>
      Work.footprint_sendPlain encrypted
  have hseal := Work.codes_sealCode (S := S) cipher code t
  rw [if_neg (not_not_intro hstage), if_pos hstage]
  simp only [Work.require, pure_bind]
  rw [Work.bind_apply]
  rcases hs : Work.sealCode S cipher code t with ⟨error | encrypted, t'⟩
  · rw [hs] at hseal
    exact hseal
  · rw [hs] at hseal
    exact ((hrest encrypted).leaves Turn.dependsOn_codes (by decide) t').trans hseal

/-- Of the second frame comes one report at most, and what is reported is encrypted. -/
theorem codes_proceed (payload : Bytes) {t : Turn ε σ τ} {cipher : OutOfBand.Cipher}
    {former : Option Bytes} {pendingKey : Option SessionKey} {device : Option Uuid}
    (kind : t.kind = .association (.outOfBand cipher former) pendingKey device) :
    ∃ reported : Option Bytes, (proceed S payload t).2.codes =
      (t.codes.1 ++ reported.toList.map (cipher, ·), t.codes.2 ++ reported.toList) := by
  unfold proceed
  rw [Work.bind_apply]
  have hasked := Work.codes_ask (S := S) (.proceed payload) t
  rcases ha : Work.ask S (.proceed payload) t with ⟨code | reply, t₁⟩
  · rw [ha] at hasked
    have hrefused : Act.report? (.asked (.proceed payload)
        (S.engine.answer (.proceed payload) t.engine t.tape).1) = none := by
      rcases hanswer : (S.engine.answer (.proceed payload) t.engine t.tape).1 with _ | reply
      · rfl
      · have hok := congrArg Prod.fst ha
        simp only [Work.ask, hanswer] at hok
        cases hok
    refine ⟨none, hasked.trans ?_⟩
    rw [hrefused]
    simp
  · have hkind : t₁.kind = .association (.outOfBand cipher former) pendingKey device :=
      (congrArg (·.2.kind) ha).symm.trans kind
    rw [ha, Work.answer_of_ask ha] at hasked
    have hasked : t₁.codes = (t.codes.1, t.codes.2 ++ reply.reported.toList) := hasked
    refine ⟨reply.reported, ?_⟩
    simp only [Work.bind_apply, Work.get_apply, hkind]
    rw [codes_sendCode, hasked]

end Association

namespace Channel

variable {c : Channel ε σ τ} {t : Turn ε σ τ} {i : Call} {cipher : OutOfBand.Cipher}

/-! ## One call -/

/-- A channel is for an association that is confirmed out of band with a given cipher. -/
def IsOutOfBand (cipher : OutOfBand.Cipher) (c : Channel ε σ τ) : Prop :=
  ∃ former pendingKey device, c.kind = .association (.outOfBand cipher former) pendingKey device

/-- What a call to an association with a given cipher comes to, as far as codes are concerned. -/
inductive Coded (cipher : OutOfBand.Cipher) (c : Channel ε σ τ) (t : Turn ε σ τ) : Prop where
  /-- No code is reported and none encrypted; as long as the second frame may be due, the cipher stays. -/
  | uncoded (codes : t.codes = ([], []))
    (kind : t.phase = .handshaking → t.stage.rank ≤ Stage.inProgress.rank → t.kind = c.kind)
  /-- The second frame came in. What was reported for it was encrypted, and from then on it is not due any
  more. -/
  | second {reported : Option Bytes} (before : c.phase = .handshaking) (due : c.stage = .inProgress)
    (codes : t.codes = (reported.toList.map (cipher, ·), reported.toList))
    (spent : t.phase = .handshaking → Stage.inProgress.rank < t.stage.rank)

/-- Once the handshake is past the second frame, only the codes of a call are left to be looked at. -/
theorem Coded.of_late (late : Stage.inProgress.rank < c.stage.rank)
    (rank : c.stage.rank ≤ t.stage.rank) (codes : t.codes = ([], [])) : Coded cipher c t :=
  .uncoded codes fun _ low => absurd (Nat.lt_of_lt_of_le late (Nat.le_trans rank low)) (Nat.lt_irrefl _)

/-- A step that has nothing to do with codes is a turn without any, even if it is given up. -/
theorem codes_attempt {w : Work ε σ τ Unit} (h : Work.Leaves Turn.codes w) :
    (c.turn.attempt w).codes = ([], []) := by
  rw [Turn.attempt_eq_settle, Turn.codes_settle]
  exact h c.turn

/-- Of all the frames only the second one is dealt with by encrypting a code, and after it the second frame is
past. -/
theorem coded_setsOff {payload : Bytes} {w : Work ε σ τ Unit} (returning : c.kind.returning = none)
    (outOfBand : c.phase = .handshaking → c.stage = .inProgress → c.IsOutOfBand cipher)
    (phase : c.phase = .handshaking) (rank : c.stage.rank ≤ (c.turn.attempt w).stage.rank)
    (step : SetsOff S c payload w) : Coded cipher c (c.turn.attempt w) := by
  cases step with
  | init _ _ =>
    refine .uncoded (codes_attempt (Association.codes_init payload)) fun lasts _ => ?_
    have hkind := Association.kind_init (S := S) payload c.turn
    rwa [Turn.attempt_of_lasts lasts] at hkind
  | proceed stage _ =>
    obtain ⟨former, pendingKey, device, hkind⟩ := outOfBand phase stage
    obtain ⟨reported, hcodes⟩ :=
      Association.codes_proceed (S := S) payload (t := c.turn) hkind
    have hafter : (c.turn.attempt (Association.proceed S payload)).codes =
        (reported.toList.map (cipher, ·), reported.toList) := by
      rw [Turn.attempt_eq_settle, Turn.codes_settle]
      exact hcodes
    refine .second phase stage hafter fun lasts => ?_
    obtain ⟨_, _, _, _, _, _, _, hstage, _⟩ :=
      Association.proceed_of_ok (t := c.turn) hkind (Turn.attempt_of_lasts lasts)
    rw [hstage]
    decide
  | peerCode stage _ =>
    exact .of_late (by rw [stage]; decide) rank (codes_attempt (Association.codes_peerCode payload))
  | final stage _ =>
    exact .of_late (by rw [stage]; decide) rank (codes_attempt (Association.codes_final payload))
  | stray late => exact .of_late late rank (codes_attempt fun _ => rfl)
  | verify _ kind =>
    rw [kind] at returning
    cases returning
  | proceedReturning _ kind | resume _ kind => cases returning.symm.trans kind

/-- So it is with calls of all kinds. -/
theorem coded_serve (sound : c.Sound) (returning : c.kind.returning = none)
    (outOfBand : c.phase = .handshaking → c.stage = .inProgress → c.IsOutOfBand cipher) (i : Call) :
    Coded cipher c (c.serve S i) := by
  have hrank := (upshot_serve (S := S) i sound).rank_le
  have hdispatched := dispatched_serve (S := S) i c
  generalize c.serve S i = t at *
  cases hdispatched with
  | idle | told _ _ _ => exact .uncoded rfl fun _ _ => rfl
  | sent _ _ _ writes kind =>
    have hsealing : Act.sealings t.acts = [] :=
      List.filterMap_eq_nil_iff.2 fun a ha => by cases a <;> first | rfl | cases writes _ ha
    have hreport : Act.reports t.acts = [] :=
      List.filterMap_eq_nil_iff.2 fun a ha => by cases a <;> first | rfl | cases writes _ ha
    exact .uncoded (Prod.ext hsealing hreport) fun _ _ => kind
  | unreadable _ | premature _ =>
    refine .uncoded ?_ fun lasts _ => absurd lasts (Turn.phase_fail_ne_handshaking _ _)
    unfold Turn.codes
    rw [Turn.acts_fail]
    rfl
  | frame phase _ step => exact coded_setsOff returning outOfBand phase hrank step
  | accepted _ _ stage =>
    refine .of_late ?_ hrank (codes_attempt Association.codes_accept)
    rcases stage with stage | stage <;> rw [stage] <;> decide
  | closed _ => exact .uncoded rfl fun lasts _ => nomatch lasts

end Channel

namespace Association

variable {cipher : OutOfBand.Cipher} {c : Channel ε σ τ} {acts : List Act}

/-! ## Runs -/

/-- How an association with a given cipher has dealt with codes; `acts` are all that was done. -/
structure Sealing (cipher : OutOfBand.Cipher) (acts : List Act) (c : Channel ε σ τ) : Prop where
  /-- At most one code was reported, and it was encrypted. -/
  codes : ∃ reported : Option Bytes,
    Act.sealings acts = reported.toList.map (cipher, ·) ∧ Act.reports acts = reported.toList
  /-- As long as the second frame may be due there was none. -/
  early : c.phase = .handshaking → c.stage.rank ≤ Stage.inProgress.rank →
    Act.reports acts = [] ∧ c.IsOutOfBand cipher

/-- A code is encrypted only if none was before. -/
theorem Sealing.serve (h : Sealing cipher acts c) (sound : c.Sound)
    (returning : c.kind.returning = none) (i : Call) :
    Sealing cipher (acts ++ (c.serve S i).acts) (c.serve S i).toChannel := by
  have hbefore : (c.serve S i).phase = .handshaking → c.phase = .handshaking :=
    Channel.handshaking_of_lasts sound
  have hrank := (Channel.upshot_serve (S := S) i sound).rank_le
  have hcoded := Channel.coded_serve (S := S) sound returning
    (fun phase stage => (h.early phase (Nat.le_of_eq (by rw [stage]))).2) i
  obtain ⟨former, hsealings, hreports⟩ := h.codes
  generalize c.serve S i = t at *
  cases hcoded with
  | uncoded codes kind =>
    obtain ⟨hnoSealing, hnoReport⟩ := Prod.mk.inj codes
    refine ⟨⟨former, ?_, ?_⟩, fun lasts low => ?_⟩
    · rw [Act.sealings_append, hnoSealing, List.append_nil, hsealings]
    · rw [Act.reports_append, hnoReport, List.append_nil, hreports]
    · obtain ⟨hnone, hkind⟩ := h.early (hbefore lasts) (Nat.le_trans hrank low)
      refine ⟨by rw [Act.reports_append, hnone, hnoReport]; rfl, ?_⟩
      unfold Channel.IsOutOfBand
      rwa [kind lasts low]
  | @second reported before due codes spent =>
    obtain ⟨hsealed, hreported⟩ := Prod.mk.inj codes
    have hnone : Act.reports acts = [] := (h.early before (Nat.le_of_eq (by rw [due]))).1
    obtain rfl : former = none := by
      rw [hnone] at hreports
      exact Option.toList_eq_nil_iff.1 hreports.symm
    refine ⟨⟨reported, ?_, ?_⟩, fun lasts low => absurd (spent lasts) (Nat.not_lt.2 low)⟩
    · rw [Act.sealings_append, hsealings, hsealed]
      rfl
    · rw [Act.reports_append, hreports, hreported]
      rfl

/-- The invariant holds along every run that begins with nothing encrypted. -/
theorem sealing_run {c₀ : Channel ε σ τ} (sound : c₀.Sound) (returning : c₀.kind.returning = none)
    (start : Sealing cipher [] c₀) (ms : List (Channel.Move σ τ)) :
    Sealing cipher (Outcome.actsOf (c₀.run S ms).1) (c₀.run S ms).2 := by
  refine Channel.serving_run (P := Sealing cipher) sound start
    (fun _ hsound same h => h.serve hsound (same.trans returning) _) fun h rests => ?_
  refine ⟨h.codes, fun lasts low => ?_⟩
  obtain ⟨hnone, hkind⟩ := h.early (rests.phase.symm.trans lasts) (by rwa [← rests.stage])
  refine ⟨hnone, ?_⟩
  unfold Channel.IsOutOfBand
  rwa [rests.kind]

/-- What is to be said of the codes that an association encrypts. -/
structure SealedOnce (cipher : OutOfBand.Cipher) (acts : List Act) : Prop where
  /-- There is one at most. -/
  once : (Act.sealings acts).length ≤ 1
  /-- No nonce is used twice with the same key. -/
  nonces : ((Act.sealings acts).map fun sealing => (sealing.1.key, sealing.1.outward)).Nodup
  /-- The codes that are encrypted are those that the engine has reported, and no other cipher is used. -/
  reported : Act.sealings acts = (Act.reports acts).map (cipher, ·)

/-- One code at most is under one cipher at most, so no nonce is used twice. -/
theorem Sealing.sealedOnce (h : Sealing cipher acts c) : SealedOnce cipher acts := by
  obtain ⟨reported, hsealings, hreports⟩ := h.codes
  constructor
  case once =>
    rw [hsealings]
    cases reported <;> simp
  case nonces =>
    rw [hsealings]
    cases reported <;> simp
  case reported => rw [hsealings, hreports]

/-- Whatever the engine, the store and the stream of an out-of-band association do, one code at most is
encrypted under the cipher whose token was pushed, and it is the one that the engine has reported. -/
theorem sealed_once_run {push : Bytes → Except OutOfBand.Error Unit} {engine : ε} {store : σ}
    {stream : τ} {tape : Tape} {first : List Act} {c₀ : Channel ε σ τ}
    (made : Channel.outOfBand push engine store stream tape = .ok (first, c₀)) :
    ∃ cipher, first = [.tokenPushed cipher.token, .listening true] ∧
      c₀.kind = .association (.outOfBand cipher none) none none ∧
      ∀ ms, SealedOnce cipher (first ++ Outcome.actsOf (c₀.run S ms).1) := by
  have hsound : c₀.Sound := (Channel.NewAssociation.outOfBand made).sound
  unfold Channel.outOfBand at made
  split at made
  · cases made
  next cipher tape' _ =>
    cases made
    refine ⟨cipher, rfl, rfl, fun ms => ?_⟩
    have hstart : Sealing cipher []
        (Channel.ofKind (.association (.outOfBand cipher none) none none) engine store stream tape') :=
      ⟨⟨none, rfl, rfl⟩, fun _ _ => ⟨rfl, none, none, none, rfl⟩⟩
    have hsealed := (sealing_run (S := S) hsound rfl hstart ms).sealedOnce
    -- neither pushing the token nor listening has to do with codes
    exact ⟨hsealed.once, hsealed.nonces, hsealed.reported⟩

/-- The second frame comes in twice, and the code is encrypted for the first time only. -/
theorem sealed_once_repeated_frame :
    Act.sealings (Outcome.actsOf (confirmable.run Bench.setting
      (beforeConfirmation ++ [.frame [2]])).1) = [(sharedCipher, [4, 2])] ∧
    SealedOnce sharedCipher ([.tokenPushed sharedCipher.token, .listening true] ++
      Outcome.actsOf (confirmable.run Bench.setting (beforeConfirmation ++ [.frame [2]])).1) := by
  have hmade : Channel.outOfBand (fun _ => .ok ()) confirmable.engine confirmable.store
      confirmable.stream countingTape =
        .ok ([.tokenPushed sharedCipher.token, .listening true], confirmable) := rfl
  obtain ⟨cipher, _, hkind, hsealed⟩ := sealed_once_run (S := Bench.setting) hmade
  obtain rfl : sharedCipher = cipher := by simpa [confirmable, Channel.ofKind] using hkind
  exact ⟨by decide +kernel, hsealed _⟩

end Association

end DevicePairing
