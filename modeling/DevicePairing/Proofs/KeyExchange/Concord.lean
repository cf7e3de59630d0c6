import DevicePairing.Proofs.KeyExchange.Honest
import DevicePairing.Proofs.Pairing.Visits

/-!
# Two honest sides read the same

When the three frames of an exchange arrive as they were sent, no step is refused, and whatever the two
sides then read off their agreements is equal: the code for the user and the code to compare out of band,
the key of a first exchange, and, whatever key is resumed, the two proofs and the key that follows
(`exchange_concordant`). This holds for every way of drawing the random bytes and every suite whose
Diffie-Hellman exchange is commutative and never yields zeros.

The agreement itself is `honest_exchange`. What is added here is how each kind of exchange is concluded,
and that the code for the user is one that can be read out: six decimal digits (`Agreement.legible_code`).
-/

namespace DevicePairing

variable {S : Suite}

/-! ## The code for the user -/

/-- A text of six decimal digits. -/
def Legible (code : String) : Prop :=
  code.length = 6 ∧ ∀ c ∈ code.toList, c.isDigit = true

/-- The code that users compare is six decimal digits, whatever it is derived from. -/
theorem Agreement.legible_code (a : Agreement) : Legible a.code := by
  have hlt : ofBigEndian (a.auth.val.take 4) % 1000000 < 10 ^ 6 := Nat.mod_lt _ (by decide)
  have hlength := (Nat.length_toDigits_le_iff (b := 10) (by decide) (by decide)).2 hlt
  constructor
  · simp only [code, String.length_ofList, List.length_append, List.length_replicate]
    omega
  · intro c hc
    rw [code, String.toList_ofList, List.mem_append] at hc
    rcases hc with hc | hc
    · rw [List.eq_of_mem_replicate hc]
      decide
    · exact Nat.isDigit_of_mem_toDigits (by decide) (by decide) hc

/-! ## The exchange -/

variable (S) in
/-- An exchange in which every frame arrives as it was sent: the two sides at its end, and what the second
side reports. None when a step is refused. Each step that draws has a tape of its own. -/
def exchange (r : Responder) (drawing committing answering : Tape) :
    Option (Initiator × Responder × Reply) := do
  let (.ok commitment, i, _) := (Initiator.fresh S drawing).1.commit S committing | none
  let (.ok { next := some share, .. }, r, _) := r.init S commitment answering | none
  let (.ok disclosure, i) := i.reveal S share | none
  let (.ok report, r) := r.proceed S disclosure | none
  return (i, r, report)

/-- What two sides owe each other at the end of an exchange, by how the second side was set up. -/
structure Concordant (S : Suite) (reconnecting outOfBand : Bool) (i : Initiator) (r : Responder)
    (report : Reply) : Prop where
  /-- They hold the same agreement. -/
  agreement : ∃ a, i.agreement = some a ∧ r.agreement = some a
  /-- A code for the user is the same on both sides, and it can be read out. -/
  code : reconnecting = false → outOfBand = false →
    ∃ code, report = { stage := .verificationNeeded, code := some code } ∧ i.code = .ok code ∧
      Legible code
  /-- So is a code to compare out of band. -/
  oobCode : reconnecting = false → outOfBand = true →
    ∃ code, report = { stage := .oobVerificationNeeded, oobCode := some code } ∧ i.oobCode = .ok code
  /-- The codes being accepted, both have the same key. -/
  sessionKey : reconnecting = false →
    ∃ key, (r.verify S).1 = .ok { stage := .finished, key := some key } ∧ i.sessionKey S = .ok key
  /-- Whatever the previous key, each side accepts the other's proof of it, and both have the same next
  key. -/
  resumedKey : reconnecting = true → report = { stage := .resumingSession } ∧
    ∀ previousKey, ∃ proof answer key, i.proof S previousKey = .ok proof ∧
      (r.resume S proof previousKey).1 =
        .ok { stage := .finished, key := some key, next := some answer } ∧
      i.confirm S answer previousKey = .ok key

/-- Two sides with the same agreement are concordant, when the second is where its report says. -/
theorem concordant_of_agreement {reconnecting outOfBand : Bool} {i : Initiator} {r : Responder}
    {a : Agreement} (first : i.agreement = some a) (second : r.agreement = some a)
    (stage : r.stage =
      ({ Responder.visual with reconnecting, outOfBand }.confirmation a).stage) :
    Concordant S reconnecting outOfBand i r
      ({ Responder.visual with reconnecting, outOfBand }.confirmation a) where
  agreement := ⟨a, first, second⟩
  code := by
    rintro rfl rfl
    exact ⟨a.code, rfl, Initiator.read_of_agreement first _, a.legible_code⟩
  oobCode := by
    rintro rfl rfl
    exact ⟨a.oobCode, rfl, Initiator.read_of_agreement first _⟩
  sessionKey := by
    rintro rfl
    have awaiting : r.stage = .verificationNeeded ∨ r.stage = .oobVerificationNeeded := by
      cases outOfBand
      · exact .inl stage
      · exact .inr stage
    exact ⟨a.sessionKey S, by rw [Responder.verify_of_agreement awaiting second],
      Initiator.read_of_agreement first _⟩
  resumedKey := by
    rintro rfl
    refine ⟨rfl, fun previousKey => ⟨a.clientProof S previousKey, a.serverProof S previousKey,
      a.resumedKey S previousKey, Initiator.read_of_agreement first _, ?_,
      Initiator.confirm_of_agreement first previousKey⟩⟩
    rw [Responder.resume_of_agreement stage second]

/-- An exchange whose frames arrive as they were sent succeeds at every step and ends in concord: for
every responder as it is set up, and whatever bytes are drawn. -/
theorem exchange_concordant (hS : S.Agrees) (reconnecting outOfBand : Bool)
    (drawing committing answering : Tape) :
    ∃ i r report,
      exchange S { Responder.visual with reconnecting, outOfBand } drawing committing answering =
        some (i, r, report) ∧
      Concordant S reconnecting outOfBand i r report := by
  obtain ⟨commitment, share, disclosure, i₁, i₂, r₁, r₂, a, _, _, hcommit, hinit, hreveal, hproceed,
    -, first, second, stage⟩ := honest_exchange hS
      (r := { Responder.visual with reconnecting, outOfBand }) rfl rfl drawing committing answering
  refine ⟨i₂, r₂, _, ?_, concordant_of_agreement first second stage⟩
  simp only [exchange, hcommit, hinit, hreveal, hproceed]
  rfl

/-- Two sides that draw the same byte again and again, with the curve's shared secret for their keys. -/
theorem exchange_concordant_constant :
    Pairing.suite.Agrees ∧ ∀ reconnecting outOfBand, ∃ i r report,
      exchange Pairing.suite { Responder.visual with reconnecting, outOfBand }
        Pairing.companionTape (Pairing.companionTape.draw 32).2 Pairing.hostTape =
          some (i, r, report) ∧
      Concordant Pairing.suite reconnecting outOfBand i r report := by
  have agrees : Pairing.suite.Agrees := Pairing.between_agrees (by decide +kernel)
  exact ⟨agrees, fun reconnecting outOfBand => exchange_concordant agrees reconnecting outOfBand
    Pairing.companionTape (Pairing.companionTape.draw 32).2 Pairing.hostTape⟩

end DevicePairing
