import DevicePairing.Bench
import DevicePairing.Proofs.KeyExchange.Answers

/-!
# What a responder guards

A responder may be called in any order, with any frames, and told in between whether an exchange is
resumed. `Guarded` collects what holds of all such runs from the moment it is set up, whichever way that
was (`guarded_run`):

* A call that succeeds takes it to a strictly later stage, a call that fails leaves its stage.
* At most one call of each kind succeeds: a first frame, a continuation, and a call that yields a key.
* A continuation succeeds only with a public key of the right length whose digest is the commitment of the
  one first frame that was accepted.
* Codes conclude only an exchange that was not resumed when its continuation was accepted; a proof of the
  previous key concludes only one that was, and the proof is the keyed hash of that exchange.

The last two hold although the responder may be told otherwise later, since what it waits for is settled by
the continuation. The induction is carried by `Course`, which says for every stage what has been accepted so
far.
-/

namespace DevicePairing.Responder

/-- What may be done with a responder. -/
inductive Use where
  /-- It is asked something. What it draws then is read off a tape of its own. -/
  | ask (call : EngineCall) (tape : Tape)
  /-- It is told whether an exchange is resumed. -/
  | setReconnecting (flag : Bool)

/-- A call and what came of it. -/
structure Step where
  /-- The responder before. -/
  before : Responder
  /-- What it was asked. -/
  call : EngineCall
  /-- What it answered. -/
  answer : Except ExchangeError Reply
  /-- The responder after. -/
  after : Responder

namespace Step

/-- The first frame that was accepted in a step. -/
def opening? (s : Step) : Option Bytes :=
  match s.call, s.answer with
  | .init frame, .ok _ => some frame
  | _, _ => none

/-- Whether a continuation was accepted in a step. -/
def continues (s : Step) : Bool :=
  match s.call, s.answer with
  | .proceed _, .ok _ => true
  | _, _ => false

/-- The key that a step yielded. -/
def key? (s : Step) : Option SessionKey :=
  match s.answer with
  | .ok reply => reply.key
  | .error _ => none

end Step

/-- The first frames that were accepted. -/
def openings (log : List Step) : List Bytes := log.filterMap Step.opening?

/-- The continuations that were accepted. -/
def continuations (log : List Step) : List Step := log.filter Step.continues

/-- The keys that were yielded. -/
def keys (log : List Step) : List SessionKey := log.filterMap Step.key?

/-- The last step adds the first frame that it has accepted, if it has. -/
theorem openings_concat (log : List Step) (s : Step) :
    openings (log ++ [s]) = openings log ++ s.opening?.toList := by
  rw [openings, List.filterMap_append, ← openings]
  cases h : s.opening? <;> simp [h]

/-- It adds itself, if it is a continuation that was accepted. -/
theorem continuations_concat (log : List Step) (s : Step) :
    continuations (log ++ [s]) = continuations log ++ if s.continues then [s] else [] := by
  rw [continuations, List.filter_append, ← continuations]
  cases h : s.continues <;> simp [h]

/-- It adds the key that it has yielded, if it has. -/
theorem keys_concat (log : List Step) (s : Step) :
    keys (log ++ [s]) = keys log ++ s.key?.toList := by
  rw [keys, List.filterMap_append, ← keys]
  cases h : s.key? <;> simp [h]

/-! ## Runs -/

section Runs

variable (S : Suite)

/-- The step that a call is. -/
def step (call : EngineCall) (t : Tape) (r : Responder) : Step :=
  ⟨r, call, ((engine S).answer call r t).1, ((engine S).answer call r t).2.1⟩

/-- What a use comes to: the steps, and the responder after them. -/
def perform (u : Use) (r : Responder) : List Step × Responder :=
  match u with
  | .ask call tape => ([r.step S call tape], (r.step S call tape).after)
  | .setReconnecting flag => ([], (engine S).setReconnecting flag r)

/-- What any number of uses come to. -/
def run : List Use → Responder → List Step × Responder
  | [], r => ([], r)
  | u :: us, r =>
    let (first, r) := perform S u r
    let (rest, r) := run us r
    (first ++ rest, r)

end Runs

variable {S : Suite} {r r' : Responder} {log : List Step} {call : EngineCall} {reply : Reply}
  {e : ExchangeError} {answer : Except ExchangeError Reply}

/-- A step that succeeds is one of those listed. -/
theorem answered_of_ok {t : Tape} (accepted : (r.step S call t).answer = .ok reply) :
    Answered S r call (.ok reply) (r.step S call t).after :=
  accepted ▸ answered_answer call r t

/-- Every step of a run is a call with an answer to it. -/
theorem answered_of_mem_run {us : List Use} {s : Step} (hs : s ∈ (run S us r).1) :
    Answered S s.before s.call s.answer s.after := by
  induction us generalizing r with
  | nil => simp [run] at hs
  | cons u us ih =>
    rw [run] at hs
    rcases List.mem_append.1 hs with hs | hs
    · cases u with
      | ask call tape =>
        rw [List.eq_of_mem_singleton hs]
        exact answered_answer call r tape
      | setReconnecting flag => simp [perform] at hs
    · exact ih hs

/-! ## The course of an exchange -/

/-- The log of a responder that has accepted a first frame and nothing since. -/
structure Opened (log : List Step) (r : Responder) (opening : Bytes) (f : Commitment) : Prop where
  /-- The first frame is the only one. -/
  openings : openings log = [opening]
  /-- It holds a commitment. -/
  decoded : Commitment.decode? opening = some f
  /-- The commitment is as long as a digest. -/
  length : f.commitment.length = 32
  /-- The responder has kept it. -/
  commitment : r.commitment = f.commitment
  /-- There was no continuation yet. -/
  continuations : continuations log = []
  /-- There is no key yet. -/
  keys : keys log = []

/-- The log of a responder that has accepted a continuation and nothing since. -/
structure Agreed (log : List Step) (r : Responder) (s : Step) (a : Agreement) : Prop where
  /-- There was one first frame. -/
  openings : (openings log).length = 1
  /-- The continuation is the only one. -/
  continuations : continuations log = [s]
  /-- It led to an agreement. -/
  reached : s.after.agreement = some a
  /-- The responder still holds the agreement. -/
  held : r.agreement = some a
  /-- It still waits for what was to come then. -/
  stage : r.stage = (s.before.confirmation a).stage
  /-- There is no key yet. -/
  keys : keys log = []

/-- What a responder has accepted so far, by its stage. -/
inductive Course (log : List Step) (r : Responder) : Prop
  /-- It has accepted nothing. -/
  | fresh (stage : r.stage = .unknown) (openings : openings log = [])
      (continuations : continuations log = []) (keys : keys log = [])
  /-- It has accepted a first frame. -/
  | opened {opening : Bytes} {f : Commitment} (stage : r.stage = .inProgress)
      (opened : Opened log r opening f)
  /-- It has accepted a continuation. -/
  | agreed {s : Step} {a : Agreement} (agreed : Agreed log r s a)
  /-- It has yielded a key. -/
  | finished (stage : r.stage = .finished) (openings : (openings log).length = 1)
      (continuations : (continuations log).length = 1) (keys : (keys log).length = 1)

namespace Course

/-- At the first stage nothing was accepted. -/
theorem of_unknown (course : Course log r) (stage : r.stage = .unknown) :
    openings log = [] ∧ continuations log = [] ∧ keys log = [] := by
  cases course with
  | fresh _ openings continuations keys => exact ⟨openings, continuations, keys⟩
  | opened stage' => exact nomatch stage.symm.trans stage'
  | @agreed s a agreed =>
    have hrank := rank_confirmation s.before a
    rw [← agreed.stage, stage] at hrank
    cases hrank
  | finished stage' => exact nomatch stage.symm.trans stage'

/-- At the second stage one first frame was accepted and nothing since. -/
theorem of_inProgress (course : Course log r) (stage : r.stage = .inProgress) :
    ∃ opening f, Opened log r opening f := by
  cases course with
  | fresh stage' => exact nomatch stage.symm.trans stage'
  | opened _ opened => exact ⟨_, _, opened⟩
  | @agreed s a agreed =>
    have hrank := rank_confirmation s.before a
    rw [← agreed.stage, stage] at hrank
    cases hrank
  | finished stage' => exact nomatch stage.symm.trans stage'

/-- Where the key comes next, one continuation was accepted behind the first frame. -/
theorem of_rank (course : Course log r) (rank : r.stage.rank = 2) : ∃ s a, Agreed log r s a := by
  cases course with
  | fresh stage => rw [stage] at rank; cases rank
  | opened stage => rw [stage] at rank; cases rank
  | agreed agreed => exact ⟨_, _, agreed⟩
  | finished stage => rw [stage] at rank; cases rank

/-- The course depends on what was accepted, and on what the responder keeps of it. -/
theorem congr {log' : List Step} (course : Course log r) (hopenings : openings log' = openings log)
    (hcontinuations : continuations log' = continuations log) (hkeys : keys log' = keys log)
    (hstage : r'.stage = r.stage) (hcommitment : r'.commitment = r.commitment)
    (hagreement : r'.agreement = r.agreement) : Course log' r' := by
  cases course with
  | fresh stage openings continuations keys =>
    exact .fresh (hstage.trans stage) (hopenings.trans openings) (hcontinuations.trans continuations)
      (hkeys.trans keys)
  | opened stage opened =>
    exact .opened (hstage.trans stage)
      { openings := hopenings.trans opened.openings
        decoded := opened.decoded
        length := opened.length
        commitment := hcommitment.trans opened.commitment
        continuations := hcontinuations.trans opened.continuations
        keys := hkeys.trans opened.keys }
  | agreed agreed =>
    exact .agreed
      { openings := hopenings ▸ agreed.openings
        continuations := hcontinuations.trans agreed.continuations
        reached := agreed.reached
        held := hagreement.trans agreed.held
        stage := hstage.trans agreed.stage
        keys := hkeys.trans agreed.keys }
  | finished stage openings continuations keys =>
    exact .finished (hstage.trans stage) (hopenings ▸ openings) (hcontinuations ▸ continuations)
      (hkeys ▸ keys)

/-- What a responder is told between calls has no part in its course. -/
theorem setReconnecting (course : Course log r) (flag : Bool) :
    Course log { r with reconnecting := flag } :=
  course.congr rfl rfl rfl rfl rfl rfl

/-- A call that fails has no part in it either. -/
theorem failed (course : Course log r) (answered : Answered S r call (.error e) r') :
    Course (log ++ [⟨r, call, .error e, r'⟩]) r' := by
  have stays := answered.stays
  refine course.congr ?_ ?_ ?_ (by rw [stays]) (by rw [stays]) (by rw [stays])
  · cases call <;> simp [openings_concat, Step.opening?]
  · cases call <;> simp [continuations_concat, Step.continues]
  · simp [keys_concat, Step.key?]

/-- A continuation leads to an agreement. -/
theorem agree {opening : Bytes} {f : Commitment} {s : Step} {a : Agreement}
    (opened : Opened log r opening f) (unopened : s.opening? = none) (continues : s.continues = true)
    (keyless : s.key? = none) (reached : s.after.agreement = some a)
    (stage : s.after.stage = (s.before.confirmation a).stage) : Course (log ++ [s]) s.after := by
  refine .agreed (s := s) (a := a) ⟨?_, ?_, reached, reached, stage, ?_⟩
  · simp [openings_concat, opened.openings, unopened]
  · simp [continuations_concat, opened.continuations, continues]
  · simp [keys_concat, opened.keys, keyless]

/-- An exchange that is concluded is over, and has yielded its key. -/
theorem conclude {s : Step} {a : Agreement} {key : SessionKey} {conclusion : Step}
    (agreed : Agreed log r s a) (unopened : conclusion.opening? = none)
    (continues : conclusion.continues = false) (keyed : conclusion.key? = some key)
    (stage : conclusion.after.stage = .finished) : Course (log ++ [conclusion]) conclusion.after := by
  refine .finished stage ?_ ?_ ?_
  · simp [openings_concat, agreed.openings, unopened]
  · simp [continuations_concat, agreed.continuations, continues]
  · simp [keys_concat, agreed.keys, keyed]

/-- Every call carries the course on. -/
theorem answered (course : Course log r) (answered : Answered S r call answer r') :
    Course (log ++ [⟨r, call, answer, r'⟩]) r' := by
  cases answer with
  | error e => exact course.failed answered
  | ok reply =>
    cases answered with
    | @opened frame f secret random due decoded length =>
      obtain ⟨hopenings, hcontinuations, hkeys⟩ := course.of_unknown due
      refine .opened rfl ⟨?_, decoded, length, rfl, ?_, ?_⟩
      · rw [openings_concat, hopenings]
        rfl
      · rw [continuations_concat, hcontinuations]
        rfl
      · rw [keys_concat, hkeys]
        rfl
    | @agreed frame f secret a due disclosed committed held derived =>
      obtain ⟨opening, f', opened⟩ := course.of_inProgress due
      exact agree opened rfl rfl (confirmation_key r a) rfl rfl
    | @verified a due held =>
      obtain ⟨s, a', agreed⟩ := course.of_rank (by rcases due with h | h <;> rw [h] <;> rfl)
      exact conclude agreed rfl rfl rfl rfl
    | @resumed frame previousKey a due held proof =>
      obtain ⟨s, a', agreed⟩ := course.of_rank (by rw [due]; rfl)
      exact conclude agreed rfl rfl rfl rfl

/-- Every run carries it on. -/
theorem run (course : Course log r) (us : List Use) :
    Course (log ++ (Responder.run S us r).1) (Responder.run S us r).2 := by
  induction us generalizing log r with
  | nil => simpa [Responder.run] using course
  | cons u us ih =>
    rw [Responder.run, ← List.append_assoc]
    cases u with
    | ask call tape => exact ih (course.answered (answered_answer call r tape))
    | setReconnecting flag => exact ih (by simpa [perform, engine] using course.setReconnecting flag)

end Course

/-! ## What is guarded -/

/-- What holds of every run of a responder, from the state it was set up in. -/
structure Guarded (S : Suite) (r₀ : Responder) : Prop where
  /-- A call that succeeds reports a stage of higher rank than the one before, and leads to it. -/
  advances : ∀ us, ∀ s ∈ (run S us r₀).1, ∀ reply, s.answer = .ok reply →
    s.before.stage.rank < reply.stage.rank ∧ s.after.stage = reply.stage
  /-- A call that fails leaves the stage, and everything but the secret and the frames exchanged. -/
  stays : ∀ us, ∀ s ∈ (run S us r₀).1, ∀ e, s.answer = .error e →
    s.after.stage = s.before.stage ∧
      s.after = { s.before with secret := s.after.secret, transcript := s.after.transcript }
  /-- At most one first frame and one continuation are accepted, and at most one key is yielded. -/
  once : ∀ us, (openings (run S us r₀).1).length ≤ 1 ∧ (continuations (run S us r₀).1).length ≤ 1 ∧
    (keys (run S us r₀).1).length ≤ 1
  /-- A continuation that is accepted after a run shows the public key that the first frame of the run
  committed to. -/
  committed : ∀ us frame t reply, ((run S us r₀).2.step S (.proceed frame) t).answer = .ok reply →
    ∃ opening commitment disclosure,
      openings (run S us r₀).1 = [opening] ∧
      Commitment.decode? opening = some commitment ∧ commitment.commitment.length = 32 ∧
      Disclosure.decode? frame = some disclosure ∧ disclosure.publicKey.length = 32 ∧
      (S.digest disclosure.publicKey).val = commitment.commitment
  /-- Codes give a key only if no exchange was resumed when the continuation was accepted. -/
  compared : ∀ us t reply key, ((run S us r₀).2.step S .verify t).answer = .ok reply →
    reply.key = some key →
    ∃ s, continuations (run S us r₀).1 = [s] ∧ s.before.reconnecting = false
  /-- A proof gives a key only if one was resumed then, and the proof is the keyed hash of what the
  continuation led to. -/
  proved : ∀ us frame previousKey t reply key,
    ((run S us r₀).2.step S (.resume frame previousKey) t).answer = .ok reply →
    reply.key = some key →
    ∃ s a, continuations (run S us r₀).1 = [s] ∧ s.before.reconnecting = true ∧
      s.after.agreement = some a ∧ frame = (S.mac previousKey (ascii "CLIENT" ++ a.auth.val)).val

/-- Every run of a responder is guarded, whichever way it is set up. -/
theorem guarded_run (S : Suite) (reconnecting outOfBand : Bool) :
    Guarded S { visual with reconnecting, outOfBand } := by
  have course : ∀ us, Course (run S us { visual with reconnecting, outOfBand }).1
      (run S us { visual with reconnecting, outOfBand }).2 := by
    intro us
    have start : Course [] { visual with reconnecting, outOfBand } := .fresh rfl rfl rfl rfl
    exact start.run us
  constructor
  case advances =>
    intro us s hs reply h
    have answered := answered_of_mem_run hs
    rw [h] at answered
    exact answered.advances
  case stays =>
    intro us s hs e h
    have answered := answered_of_mem_run hs
    rw [h] at answered
    exact ⟨by rw [answered.stays], answered.stays⟩
  case once =>
    intro us
    cases course us with
    | fresh stage openings continuations keys => simp [openings, continuations, keys]
    | opened stage opened => simp [opened.openings, opened.continuations, opened.keys]
    | agreed agreed => simp [agreed.openings, agreed.continuations, agreed.keys]
    | finished stage openings continuations keys => simp [openings, continuations, keys]
  case committed =>
    intro us frame t reply h
    have answered := answered_of_ok h
    obtain ⟨opening, commitment, opened⟩ := (course us).of_inProgress answered.due
    obtain ⟨disclosure, disclosed, length, digest⟩ := answered.disclosed
    exact ⟨opening, commitment, disclosure, opened.openings, opened.decoded, opened.length, disclosed,
      length, digest.trans opened.commitment⟩
  case compared =>
    intro us t reply key h _
    have answered := answered_of_ok h
    obtain ⟨s, a, agreed⟩ := (course us).of_rank (by rcases answered.due with h | h <;> rw [h] <;> rfl)
    refine ⟨s, agreed.continuations, (confirmation_stage_eq_verification_iff _ a).1 ?_⟩
    rw [← agreed.stage]
    exact answered.due
  case proved =>
    intro us frame previousKey t reply key h _
    have answered := answered_of_ok h
    have due := answered.due
    obtain ⟨s, a, agreed⟩ := (course us).of_rank (congrArg Stage.rank due)
    obtain ⟨a', held, proof⟩ := answered.proved
    obtain rfl : a = a' := Option.some.inj (agreed.held.symm.trans held)
    refine ⟨s, a, agreed.continuations, (confirmation_stage_eq_resuming_iff _ a).1 ?_, agreed.reached, proof⟩
    exact agreed.stage.symm.trans due

/-- An honest peer is answered, and the codes are accepted more often than they should be. -/
def insistence : List Use :=
  [.ask (.init Bench.commitment) ⟨fun i => i.toUInt8, 0⟩, .ask (.proceed Bench.disclosure) Bench.peerTape,
    .ask .verify Bench.peerTape, .setReconnecting true, .ask .verify Bench.peerTape]

/-- A run that yields its one key. -/
theorem guarded_insistence :
    Guarded .standard visual ∧ (keys (run .standard insistence visual).1).length = 1 :=
  ⟨guarded_run .standard false false, by decide +kernel⟩

end DevicePairing.Responder
