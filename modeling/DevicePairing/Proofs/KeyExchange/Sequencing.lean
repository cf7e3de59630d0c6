import DevicePairing.Bench
import DevicePairing.Proofs.Cbor.Size
import DevicePairing.Proofs.KeyExchange.Answers
import Mathlib.Data.List.Induction

/-!
# The order of calls to an initiator

An initiator is to make its first frame, then to take in the answer to it, and then to be read: for codes,
keys and proofs. It keeps no record of how far it has come, but infers it from three things, which change
independently of each other: whether frames were exchanged, whether the secret is still there, and whether
there is an agreement. `Orderly` says that it gets this right in a sequence of calls: whatever is called out
of turn is refused as such, an answer is taken in only after a first frame was made, and neither happens
twice.

It gets this right exactly if the first call that is no reading is not an answer to a first frame
(`orderly_iff_not_strayed`). When the answer comes too early nothing stands in its way, since the secret is
there from the start: it is taken in, and there is an agreement, although no first frame was made
(`not_orderly_hasty`). That first frames and answers succeed once at most holds of all sequences (`once_run`).

`Answered` lists what may come of a call. The induction is carried by `Course`, which has one case for each
of the three places in the order and one for an initiator that was led astray.
-/

namespace DevicePairing.Initiator

/-! ## Calls and their order -/

/-- What an initiator may be called for. -/
inductive Call where
  /-- To make the first frame. What it draws then is read off a tape of its own. -/
  | commit (tape : Tape)
  /-- To take in the answer to the first frame. -/
  | reveal (frame : Bytes)
  /-- For the code that the user compares. -/
  | code
  /-- For the code to compare out of band. -/
  | oobCode
  /-- For the key of a first exchange. -/
  | sessionKey
  /-- For the proof that it holds the previous key. -/
  | proof (previousKey : Bytes)
  /-- To check that the other side holds the previous key, and for the key that follows. -/
  | confirm (frame previousKey : Bytes)

/-- What a call that succeeds yields. -/
inductive Yield where
  /-- A frame, a code or a proof. -/
  | bytes (bs : Bytes)
  /-- A code that the user can read. -/
  | text (s : String)
  /-- A key. -/
  | key (key : SessionKey)

/-- The places in the order of calls. -/
inductive Position where
  /-- The first frame is to be made. -/
  | start
  /-- The answer to it is to be taken in. -/
  | committed
  /-- There is an agreement to be read. -/
  | agreed
  deriving DecidableEq

/-- Where in the order a call has its place. -/
def Call.place : Call → Position
  | .commit _ => .start
  | .reveal _ => .committed
  | _ => .agreed

/-- A call and what came of it. -/
structure Step where
  /-- The call. -/
  call : Call
  /-- The answer to it. -/
  answer : Except ExchangeError Yield

/-- Whether a first frame was made in a step. -/
def Step.commits (s : Step) : Bool :=
  match s.call, s.answer with
  | .commit _, .ok _ => true
  | _, _ => false

/-- Whether the answer to a first frame was taken in in a step. -/
def Step.reveals (s : Step) : Bool :=
  match s.call, s.answer with
  | .reveal _, .ok _ => true
  | _, _ => false

/-- How many first frames were made. -/
def commits (log : List Step) : Nat := log.countP Step.commits

/-- How many answers to first frames were taken in. -/
def reveals (log : List Step) : Nat := log.countP Step.reveals

section Counts

variable {log : List Step} {s : Step}

/-- A step in which a first frame is made is counted. -/
theorem commits_concat (h : s.commits = true) : commits (log ++ [s]) = commits log + 1 := by
  simp [commits, List.countP_append, h]

/-- Any other step is not. -/
theorem commits_concat_of_not (h : s.commits = false) : commits (log ++ [s]) = commits log := by
  simp [commits, List.countP_append, h]

/-- A step in which an answer is taken in is counted. -/
theorem reveals_concat (h : s.reveals = true) : reveals (log ++ [s]) = reveals log + 1 := by
  simp [reveals, List.countP_append, h]

/-- Any other step is not. -/
theorem reveals_concat_of_not (h : s.reveals = false) : reveals (log ++ [s]) = reveals log := by
  simp [reveals, List.countP_append, h]

end Counts

/-- The place in the order that has been reached. -/
def position (log : List Step) : Position :=
  if reveals log ≠ 0 then .agreed else if commits log ≠ 0 then .committed else .start

/-- The first call that does not just read the agreement. -/
def opening (calls : List Call) : Option Call := calls.find? (·.place ≠ .agreed)

/-- The first call that does not just read the agreement brings the answer to a first frame. -/
def Strayed (calls : List Call) : Prop := ∃ frame, opening calls = some (.reveal frame)

/-- The last call is looked at only if none before it decides. -/
theorem opening_concat (calls : List Call) (call : Call) :
    opening (calls ++ [call]) = (opening calls).or (opening [call]) := List.find?_append

/-- What comes later does not change how the calls began. -/
theorem Strayed.append {calls : List Call} (h : Strayed calls) (calls' : List Call) :
    Strayed (calls ++ calls') := by
  obtain ⟨frame, hfirst⟩ := h
  refine ⟨frame, ?_⟩
  unfold opening at hfirst ⊢
  rw [List.find?_append, hfirst]
  rfl

section Runs

variable (S : Suite)

/-- Makes a call. -/
def perform (i : Initiator) : Call → Except ExchangeError Yield × Initiator
  | .commit tape =>
    let (answer, i, _) := i.commit S tape
    (answer.map .bytes, i)
  | .reveal frame =>
    let (answer, i) := i.reveal S frame
    (answer.map .bytes, i)
  | .code => (i.code.map .text, i)
  | .oobCode => (i.oobCode.map .bytes, i)
  | .sessionKey => ((i.sessionKey S).map .key, i)
  | .proof previousKey => ((i.proof S previousKey).map .bytes, i)
  | .confirm frame previousKey => ((i.confirm S frame previousKey).map .key, i)

/-- Makes calls one after another: the steps, and the initiator after them. -/
def run : List Call → Initiator → List Step × Initiator
  | [], i => ([], i)
  | call :: calls, i =>
    let (answer, i) := i.perform S call
    let (log, i) := run calls i
    (⟨call, answer⟩ :: log, i)

/-- A run goes on from what its first call leaves. -/
theorem run_cons (call : Call) (calls : List Call) (i : Initiator) :
    run S (call :: calls) i = (⟨call, (i.perform S call).1⟩ :: (run S calls (i.perform S call).2).1,
      (run S calls (i.perform S call).2).2) := rfl

/-- The last call of a run starts from what the others have left. -/
theorem run_concat (calls : List Call) (call : Call) (i : Initiator) :
    run S (calls ++ [call]) i =
      ((run S calls i).1 ++ [⟨call, ((run S calls i).2.perform S call).1⟩],
        ((run S calls i).2.perform S call).2) := by
  induction calls generalizing i with
  | nil => rfl
  | cons first calls ih =>
    rw [List.cons_append, run_cons, ih, run_cons]
    rfl

/-- A sequence of calls is dealt with in order. -/
structure Orderly (i₀ : Initiator) (calls : List Call) : Prop where
  /-- What is called out of turn is refused as such. -/
  refused : ∀ before call, before ++ [call] <+: calls → call.place ≠ position (run S before i₀).1 →
    ∃ e : ExchangeError, ((run S before i₀).2.perform S call).1 = .error e ∧ e.OutOfTurn
  /-- An answer is taken in only after a first frame was made. -/
  revealed : ∀ before frame yield, before ++ [.reveal frame] <+: calls →
    ((run S before i₀).2.perform S (.reveal frame)).1 = .ok yield → commits (run S before i₀).1 ≠ 0
  /-- Neither happens twice. -/
  once : commits (run S calls i₀).1 ≤ 1 ∧ reveals (run S calls i₀).1 ≤ 1

end Runs

variable {S : Suite} {i i' : Initiator} {calls : List Call} {log : List Step}

/-! ## One call -/

/-- What may come of a call. -/
inductive Answered (i : Initiator) : Call → Except ExchangeError Yield → Initiator → Prop
  /-- The first frame is made. -/
  | committed {tape : Tape} {frame : Bytes} (new : i.transcript = []) (written : frame ≠ []) :
    Answered i (.commit tape) (.ok (.bytes frame)) { i with transcript := frame }
  /-- It was made before. -/
  | recommitted {tape : Tape} {e : ExchangeError} (late : i.transcript ≠ []) (outOfTurn : e.OutOfTurn) :
    Answered i (.commit tape) (.error e) i
  /-- The secret was used up before. -/
  | spent {frame : Bytes} {e : ExchangeError} (used : i.secret = none) (outOfTurn : e.OutOfTurn) :
    Answered i (.reveal frame) (.error e) i
  /-- The answer leads to no agreement, but the secret is used up. -/
  | failed {frame transcript : Bytes} {e : ExchangeError} (held : i.secret ≠ none)
    (longer : i.transcript <+: transcript) (inTurn : ¬ e.OutOfTurn) :
    Answered i (.reveal frame) (.error e) { i with secret := none, transcript }
  /-- The answer leads to an agreement. -/
  | revealed {frame transcript finished : Bytes} {a : Agreement} (held : i.secret ≠ none)
    (written : transcript ≠ []) :
    Answered i (.reveal frame) (.ok (.bytes finished))
      { i with secret := none, transcript, agreement := some a }
  /-- There is nothing to be read. -/
  | unread {call : Call} {e : ExchangeError} (reading : call.place = .agreed) (none : i.agreement = none)
    (outOfTurn : e.OutOfTurn) : Answered i call (.error e) i
  /-- The agreement is read. -/
  | read {call : Call} {answer : Except ExchangeError Yield} (reading : call.place = .agreed)
    (some : i.agreement ≠ none) : Answered i call answer i

/-- To read the agreement is out of turn as long as there is none, and changes nothing. -/
theorem answered_read {α : Type} {call : Call} (reading : call.place = .agreed)
    (f : Agreement → Except ExchangeError α) (g : α → Yield) :
    Answered i call ((i.read f).map g) i := by
  unfold Initiator.read
  rcases h : i.agreement with _ | a
  · exact .unread reading h ⟨.inProgress, rfl⟩
  · exact .read reading (by rw [h]; exact Option.some_ne_none a)

/-- Nothing else can come of the wish to begin. -/
theorem answered_commit (tape : Tape) (i : Initiator) :
    Answered i (.commit tape) ((i.commit S tape).1.map .bytes) (i.commit S tape).2.1 := by
  unfold commit
  by_cases hnew : i.transcript = []
  · rw [if_neg (not_not_intro hnew), hnew]
    exact .committed hnew (Cbor.Row.write_ne_nil _ _)
  · rw [if_pos hnew]
    exact .recommitted hnew ⟨.inProgress, rfl⟩

/-- Nothing else can come of an answer to a first frame. -/
theorem answered_reveal (frame : Bytes) (i : Initiator) :
    Answered i (.reveal frame) ((i.reveal S frame).1.map .bytes) (i.reveal S frame).2 := by
  unfold reveal
  rcases hsecret : i.secret with _ | secret
  · exact .spent hsecret ⟨.finished, rfl⟩
  have hheld : i.secret ≠ none := by
    rw [hsecret]
    exact Option.some_ne_none secret
  rcases KeyShare.decode? frame with _ | f
  · exact .failed hheld List.prefix_rfl (fun ⟨_, h⟩ => nomatch h)
  dsimp only
  split
  · next e he =>
    refine .failed hheld ?_ (Agreement.not_outOfTurn_of_derive he)
    rw [List.append_assoc]
    exact List.prefix_append ..
  · refine .revealed hheld ?_
    exact List.append_ne_nil_of_right_ne_nil _ (Cbor.Row.write_ne_nil _ _)

/-- What comes of a call is one of the things listed. -/
theorem answered_perform (i : Initiator) (call : Call) :
    Answered i call (i.perform S call).1 (i.perform S call).2 := by
  cases call with
  | commit tape => exact answered_commit tape i
  | reveal frame => exact answered_reveal frame i
  | code | oobCode | sessionKey | proof _ | confirm _ _ => exact answered_read rfl _ _

/-! ## The course of an exchange -/

/-- How far an initiator has come in a sequence of calls. -/
inductive Course (calls : List Call) (log : List Step) (i : Initiator) : Prop
  /-- Nothing was done but to ask for an agreement. -/
  | idle (first : opening calls = none) (made : commits log = 0) (taken : reveals log = 0)
    (secret : i.secret ≠ none) (transcript : i.transcript = []) (agreement : i.agreement = none)
  /-- The first frame was made. -/
  | committed (first : opening calls ≠ none) (made : commits log = 1) (taken : reveals log = 0)
    (transcript : i.transcript ≠ []) (agreement : i.agreement = none)
  /-- The answer to it was taken in. -/
  | agreed (first : opening calls ≠ none) (made : commits log ≤ 1)
    (strayed : commits log = 0 → Strayed calls) (taken : reveals log = 1) (secret : i.secret = none)
    (transcript : i.transcript ≠ []) (agreement : i.agreement ≠ none)
  /-- An answer came too early and was of no use. -/
  | astray (strayed : Strayed calls) (made : commits log = 0) (taken : reveals log = 0)
    (secret : i.secret = none) (agreement : i.agreement = none)

/-- A call that decides still does with others behind it. -/
theorem opening_ne_none_append (h : opening calls ≠ none) (calls' : List Call) :
    opening (calls ++ calls') ≠ none := by
  unfold opening at h ⊢
  rw [List.find?_append]
  exact fun hnone => h (Option.or_eq_none_iff.1 hnone).1

/-- Calls that began out of order have begun. -/
theorem Strayed.opening_ne_none (h : Strayed calls) : opening calls ≠ none := by
  obtain ⟨frame, hfirst⟩ := h
  rw [hfirst]
  exact Option.some_ne_none _

/-- After nothing but readings, a call that is none is the first one. -/
theorem opening_of_first {call : Call} (first : opening calls = none) (acts : call.place ≠ .agreed) :
    opening (calls ++ [call]) = some call := by
  have hcall : opening [call] = some call := List.find?_cons_of_pos (decide_eq_true acts)
  rw [opening_concat, first, hcall]
  rfl

/-- Where an answer was taken in, the agreement may be read. -/
theorem position_of_reveals (taken : reveals log = 1) : position log = .agreed :=
  if_pos (by rw [taken]; decide)

/-- Where a first frame was made and no answer taken in, the answer comes next. -/
theorem position_of_commits (made : commits log = 1) (taken : reveals log = 0) :
    position log = .committed := by
  rw [position, if_neg (not_not_intro taken), if_pos (by rw [made]; decide)]

/-- Where neither has happened nothing has been reached. -/
theorem position_of_none (made : commits log = 0) (taken : reveals log = 0) :
    position log = .start := by
  rw [position, if_neg (not_not_intro taken), if_neg (not_not_intro made)]

/-- Where the answer comes next a first frame was made. -/
theorem commits_of_position (h : position log = .committed) : commits log ≠ 0 := by
  unfold position at h
  split at h
  · cases h
  · split at h
    · assumption
    · cases h

namespace Course

/-- An initiator of which nothing was asked but readings is as it was made. -/
theorem of_first (course : Course calls log i) (first : opening calls = none) :
    i.secret ≠ none ∧ i.transcript = [] ∧ position log = .start := by
  cases course with
  | idle _ made taken secret transcript _ => exact ⟨secret, transcript, position_of_none made taken⟩
  | committed first' | agreed first' => exact absurd first first'
  | astray strayed => exact absurd first strayed.opening_ne_none

/-- A step in which neither a first frame is made nor an answer taken in, and which changes nothing, leaves
the course as it is. -/
theorem keep (course : Course calls log i) {call : Call} {answer : Except ExchangeError Yield}
    (made : Step.commits ⟨call, answer⟩ = false) (taken : Step.reveals ⟨call, answer⟩ = false)
    (first : opening calls = none → opening [call] = none) :
    Course (calls ++ [call]) (log ++ [⟨call, answer⟩]) i := by
  have hmade : commits (log ++ [⟨call, answer⟩]) = commits log :=
    commits_concat_of_not made
  have htaken : reveals (log ++ [⟨call, answer⟩]) = reveals log :=
    reveals_concat_of_not taken
  cases course with
  | idle first' made taken secret transcript agreement =>
    refine .idle ?_ (hmade.trans made) (htaken.trans taken) secret transcript agreement
    rw [opening_concat, first']
    exact first first'
  | committed first made taken transcript agreement =>
    exact .committed (opening_ne_none_append first _) (hmade.trans made) (htaken.trans taken) transcript
      agreement
  | agreed first made strayed taken secret transcript agreement =>
    exact .agreed (opening_ne_none_append first _) (hmade ▸ made)
      (fun h => (strayed (hmade ▸ h)).append _) (htaken.trans taken) secret transcript agreement
  | astray strayed made taken secret agreement =>
    exact .astray (strayed.append _) (hmade.trans made) (htaken.trans taken) secret agreement

/-- The first frame is made: the one thing that was to be done, if an answer has not come too early. -/
theorem commit (course : Course calls log i) {tape : Tape} {frame : Bytes} (new : i.transcript = [])
    (written : frame ≠ []) :
    Course (calls ++ [.commit tape]) (log ++ [⟨.commit tape, .ok (.bytes frame)⟩])
      { i with transcript := frame } := by
  have hmade : commits (log ++ [⟨.commit tape, .ok (.bytes frame)⟩]) = commits log + 1 :=
    commits_concat rfl
  have htaken : reveals (log ++ [⟨.commit tape, .ok (.bytes frame)⟩]) = reveals log :=
    reveals_concat_of_not rfl
  cases course with
  | idle first made taken _ _ agreement =>
    refine .committed ?_ (by rw [hmade, made]) (htaken.trans taken) written agreement
    rw [opening_of_first first Position.noConfusion]
    exact Option.some_ne_none _
  | astray strayed made taken _ agreement =>
    exact .committed (strayed.append _).opening_ne_none (by rw [hmade, made]) (htaken.trans taken) written
      agreement
  | committed _ _ _ transcript | agreed _ _ _ _ _ transcript => exact absurd new transcript

/-- An answer is of no use: before the first frame it has led astray, after it another one is too late. -/
theorem fail (course : Course calls log i) {frame transcript : Bytes} {e : ExchangeError}
    (held : i.secret ≠ none) (longer : i.transcript <+: transcript) :
    Course (calls ++ [.reveal frame]) (log ++ [⟨.reveal frame, .error e⟩])
      { i with secret := none, transcript } := by
  have hmade : commits (log ++ [⟨.reveal frame, .error e⟩]) = commits log :=
    commits_concat_of_not rfl
  have htaken : reveals (log ++ [⟨.reveal frame, .error e⟩]) = reveals log :=
    reveals_concat_of_not rfl
  cases course with
  | idle first made taken _ _ agreement =>
    exact .astray ⟨frame, opening_of_first first Position.noConfusion⟩ (hmade.trans made)
      (htaken.trans taken) rfl agreement
  | committed first made taken written agreement =>
    refine .committed (opening_ne_none_append first _) (hmade.trans made) (htaken.trans taken) ?_ agreement
    exact longer.ne_nil written
  | agreed _ _ _ _ secret | astray _ _ _ secret => exact absurd secret held

/-- An answer is taken in, in turn or too early. -/
theorem reveal (course : Course calls log i) {frame transcript finished : Bytes} {a : Agreement}
    (held : i.secret ≠ none) (written : transcript ≠ []) :
    Course (calls ++ [.reveal frame]) (log ++ [⟨.reveal frame, .ok (.bytes finished)⟩])
      { i with secret := none, transcript, agreement := some a } := by
  have hmade : commits (log ++ [⟨.reveal frame, .ok (.bytes finished)⟩]) = commits log :=
    commits_concat_of_not rfl
  have htaken : reveals (log ++ [⟨.reveal frame, .ok (.bytes finished)⟩]) = reveals log + 1 :=
    reveals_concat rfl
  cases course with
  | idle first made taken _ _ _ =>
    have hstrayed : Strayed (calls ++ [.reveal frame]) :=
      ⟨frame, opening_of_first first Position.noConfusion⟩
    exact .agreed hstrayed.opening_ne_none (by rw [hmade, made]; decide) (fun _ => hstrayed)
      (by rw [htaken, taken]) rfl written (Option.some_ne_none a)
  | committed first made taken _ _ =>
    refine .agreed (opening_ne_none_append first _) (Nat.le_of_eq (hmade.trans made)) (fun h => ?_)
      (by rw [htaken, taken]) rfl written (Option.some_ne_none a)
    rw [hmade, made] at h
    cases h
  | agreed _ _ _ _ secret | astray _ _ _ secret => exact absurd secret held

/-- Every call carries the course on. -/
theorem answered (course : Course calls log i) {call : Call} {answer : Except ExchangeError Yield}
    (h : Answered i call answer i') : Course (calls ++ [call]) (log ++ [⟨call, answer⟩]) i' := by
  cases h with
  | committed new written => exact course.commit new written
  | recommitted late _ => exact course.keep rfl rfl fun first => absurd (course.of_first first).2.1 late
  | spent used _ => exact course.keep rfl rfl fun first => absurd used (course.of_first first).1
  | failed held longer _ => exact course.fail held longer
  | revealed held written => exact course.reveal held written
  | unread reading _ _ | read reading _ =>
    have hreading : opening [call] = none :=
      List.find?_cons_of_neg (by rw [reading]; exact Bool.false_ne_true)
    refine course.keep ?_ ?_ fun _ => hreading
    all_goals cases call <;> first | rfl | cases reading

/-- What is called out of turn is refused as such, unless an answer comes too early. -/
theorem refused (course : Course calls log i) {call : Call} {answer : Except ExchangeError Yield}
    (h : Answered i call answer i') (punctual : ¬ Strayed (calls ++ [call]))
    (misplaced : call.place ≠ position log) : ∃ e : ExchangeError, answer = .error e ∧ e.OutOfTurn := by
  have early : ∀ frame, call = .reveal frame → opening calls ≠ none := by
    rintro frame rfl first
    exact punctual ⟨frame, opening_of_first first Position.noConfusion⟩
  cases h with
  | recommitted _ outOfTurn | spent _ outOfTurn | unread _ _ outOfTurn => exact ⟨_, rfl, outOfTurn⟩
  | committed new _ =>
    cases course with
    | idle _ made taken | astray _ made taken =>
      exact absurd (position_of_none made taken).symm misplaced
    | committed _ _ _ transcript | agreed _ _ _ _ _ transcript => exact absurd new transcript
  | failed held _ _ | revealed held _ =>
    cases course with
    | idle first => exact absurd first (early _ rfl)
    | committed _ made taken => exact absurd (position_of_commits made taken).symm misplaced
    | agreed _ _ _ _ secret | astray _ _ _ secret => exact absurd secret held
  | read reading some =>
    cases course with
    | agreed _ _ _ taken => exact absurd (reading.trans (position_of_reveals taken).symm) misplaced
    | idle _ _ _ _ _ agreement | committed _ _ _ _ agreement | astray _ _ _ _ agreement =>
      exact absurd agreement some

end Course

/-! ## All sequences of calls -/

/-- A fresh initiator is always somewhere on this course. -/
theorem course_run (S : Suite) (t : Tape) (calls : List Call) :
    Course calls (run S calls (fresh S t).1).1 (run S calls (fresh S t).1).2 := by
  induction calls using List.reverseRecOn with
  | nil => exact .idle rfl rfl rfl (Option.some_ne_none _) rfl rfl
  | append_singleton calls call ih =>
    rw [run_concat]
    exact ih.answered (answered_perform _ call)

/-- However an initiator is called, it makes one first frame at most and takes in one answer at most. -/
theorem once_run (S : Suite) (t : Tape) (calls : List Call) :
    commits (run S calls (fresh S t).1).1 ≤ 1 ∧ reveals (run S calls (fresh S t).1).1 ≤ 1 := by
  cases course_run S t calls with
  | idle _ made taken | astray _ made taken => rw [made, taken]; decide
  | committed _ made taken => rw [made, taken]; decide
  | agreed _ made _ taken => exact ⟨made, Nat.le_of_eq taken⟩

/-- A sequence of calls to a new initiator is dealt with in order exactly if the first call that is no
reading does not bring the answer to a first frame. -/
theorem orderly_iff_not_strayed (S : Suite) (t : Tape) (calls : List Call) :
    Orderly S (fresh S t).1 calls ↔ ¬ Strayed calls := by
  constructor
  · rintro orderly ⟨frame, hfirst⟩
    obtain ⟨_, before, after, rfl, hreadings⟩ := List.find?_eq_some_iff_append.1 hfirst
    have hnone : opening before = none :=
      List.find?_eq_none.2 fun call hcall => by simpa using hreadings call hcall
    obtain ⟨hsecret, _, hstart⟩ := (course_run S t before).of_first hnone
    obtain ⟨e, he, houtOfTurn⟩ := orderly.refused before (.reveal frame) ⟨after, by simp⟩
      (by rw [hstart]; exact fun h => nomatch h)
    have hanswered := answered_perform (S := S) (run S before (fresh S t).1).2 (.reveal frame)
    rw [he] at hanswered
    generalize ((run S before (fresh S t).1).2.perform S (.reveal frame)).2 = i' at hanswered
    cases hanswered with
    | spent used _ => exact hsecret used
    | failed _ _ inTurn => exact inTurn houtOfTurn
    | unread reading | read reading => cases reading
  · intro punctual
    have hbefore : ∀ before, before <+: calls → ¬ Strayed before := by
      rintro before ⟨after, rfl⟩ hstrayed
      exact punctual (hstrayed.append after)
    constructor
    case refused =>
      intro before call hcalls misplaced
      exact (course_run S t before).refused (answered_perform _ call) (hbefore _ hcalls) misplaced
    case revealed =>
      intro before frame yield hcalls taken
      have hanswered := answered_perform (S := S) (run S before (fresh S t).1).2 (.reveal frame)
      rw [taken] at hanswered
      refine commits_of_position (Decidable.byContradiction fun misplaced => ?_)
      obtain ⟨e, he, _⟩ :=
        (course_run S t before).refused hanswered (hbefore _ hcalls) (Ne.symm misplaced)
      cases he
    case once => exact once_run S t calls

/-- An answer to a first frame: the base point of the curve as the public key, and zeros for the random bytes. -/
def earlyAnswer : Bytes := (KeyShare.mk (9 :: List.replicate 31 0) (List.replicate 32 0)).encode

/-- An initiator that was just made takes in an answer to a first frame, and its key can be read, although it
has not made a first frame. -/
theorem not_orderly_hasty :
    (Bench.initiator.perform .standard (.reveal earlyAnswer)).1.isOk = true ∧
    (((Bench.initiator.perform .standard (.reveal earlyAnswer)).2.perform .standard .sessionKey).1.isOk =
      true) ∧
    ¬ Orderly .standard Bench.initiator [.reveal earlyAnswer] := by
  have htaken : (Bench.initiator.perform .standard (.reveal earlyAnswer)).1.isOk = true := by
    decide +kernel
  refine ⟨htaken, by decide +kernel, fun orderly => ?_⟩
  rcases hanswer : (Bench.initiator.perform .standard (.reveal earlyAnswer)).1 with e | yield
  · rw [hanswer] at htaken
    cases htaken
  · exact orderly.revealed [] earlyAnswer yield List.prefix_rfl hanswer rfl

end DevicePairing.Initiator
