import DevicePairing.Proofs.Stream.Packet.Pieces
import DevicePairing.Proofs.Stream.Packet.Sending
import Mathlib.Data.List.Basic
import Mathlib.Data.List.Infix

/-!
# Packets that the link refuses

A packet that the link refuses is gone, but the packets of its message behind it stay in the queue. So the
link accepts the packets of every message without a gap exactly if the stream is left alone after a refusal
in the middle of a message: whatever makes it hand out packets again makes it hand out the one after the
refused one. `PacketStream.gapless_iff_heeds` says so for every run and every link, and
`PacketStream.not_gapless_after_completion` is the shortest run in which a message gets a gap.

What became of each message is read off the run by position: conservation says that the packets handed to
the link are those of the messages taken, in order, so the first so many belong to the first message, and
so on (`PacketStream.fates`).
-/

namespace DevicePairing

/-! ## Numbers of packets -/

namespace Packet

/-- Packets are the numbered pieces of a message. -/
def Cut (packets : List Packet) : Prop :=
  ∃ id pieces, pieces.length ≤ maxTotal ∧
    packets = numbered id (UInt32.ofNat pieces.length) 1 pieces

/-- No packets are the pieces of nothing. -/
theorem cut_nil : Cut [] := ⟨0, [], Nat.zero_le _, rfl⟩

/-- The packets of a message are its numbered pieces. -/
theorem cut_of_split {data : Bytes} {id : UInt32} {size : Nat} {packets : List Packet}
    (h : split data id size = .ok packets) : Cut packets := by
  obtain ⟨pieces, _, _, hcount, hpackets⟩ := split_eq_ok h
  exact ⟨id, pieces, hcount, hpackets⟩

/-- Later packets have larger numbers. -/
theorem numbers_increase {id total : UInt32} {pieces : List Bytes} {k : Nat}
    (h : k + pieces.length ≤ maxTotal + 1) :
    (numbered id total k pieces).Pairwise fun p q => p.number < q.number := by
  have hincrease : ((numbered id total k pieces).map (·.number.toNat)).Pairwise (· < ·) := by
    rw [map_number_numbered id total h]
    exact List.pairwise_lt_range'
  exact (List.pairwise_map.1 hincrease).imp UInt32.lt_iff_toNat_lt.2

/-- The last packet has the number of packets for its own. -/
theorem Cut.last {packets : List Packet} {p : Packet} (h : Cut (packets ++ [p])) :
    p.number = p.total := by
  obtain ⟨id, pieces, _, hpackets⟩ := h
  rcases List.eq_nil_or_concat pieces with rfl | ⟨pieces, piece, rfl⟩
  · simp at hpackets
  · rw [List.concat_eq_append, numbered_append] at hpackets
    obtain ⟨_, hp⟩ := List.append_singleton_inj.1 hpackets
    rw [hp, List.length_append, Nat.add_comm 1]
    rfl

/-- Any other packet has a smaller one. -/
theorem Cut.number_lt {before after : List Packet} {p : Packet} (h : Cut (before ++ p :: after))
    (more : after ≠ []) : p.number < p.total := by
  obtain ⟨after, q, rfl⟩ := (List.eq_nil_or_concat' after).resolve_left more
  have hlast : q.number = q.total := by
    have hcut : Cut (before ++ p :: after ++ [q]) := by simpa using h
    exact hcut.last
  obtain ⟨id, pieces, hcount, hpackets⟩ := h
  have hincrease : (numbered id (UInt32.ofNat pieces.length) 1 pieces).Pairwise
      fun p q => p.number < q.number := numbers_increase (by omega)
  rw [← hpackets] at hincrease
  have hlt : p.number < q.number :=
    (List.pairwise_cons.1 (List.pairwise_append.1 hincrease).2.1).1 q (by simp)
  have htotal : ∀ q' ∈ before ++ p :: (after ++ [q]), q'.total = UInt32.ofNat pieces.length := by
    intro q' hq'
    rw [hpackets] at hq'
    exact total_of_mem_numbered hq'
  calc p.number < q.number := hlt
    _ = q.total := hlast
    _ = p.total := (htotal q (by simp)).trans (htotal p (by simp)).symm

end Packet

namespace PacketStream

/-! ## What becomes of a message -/

/-- What became of the packets of a message that were handed to the link, in order. -/
abbrev Fate := List (Packet × Except LinkError Unit)

/-- The numbers of the packets that the link accepted. -/
def Fate.acceptedNumbers : Fate → List UInt32
  | [] => []
  | (p, .ok _) :: fate => p.number :: acceptedNumbers fate
  | (_, .error _) :: fate => acceptedNumbers fate

/-- The link accepted the packets of a message without a gap. -/
structure Fate.Gapless (fate : Fate) : Prop where
  /-- The accepted packets are the first, the second and so on, in order. -/
  accepted : ∃ k, fate.acceptedNumbers = (List.range' 1 k).map UInt32.ofNat
  /-- After a packet was refused no later one is handed over unless the refused one was accepted first. -/
  refused : ∀ before p e between q a after,
    fate = before ++ (p, .error e) :: (between ++ (q, a) :: after) → p.number < q.number →
      (p, .ok ()) ∈ between

/-- The packets handed over, dealt out to the messages they belong to. -/
def deal : List (List Packet) → Fate → List Fate
  | [], _ => []
  | packets :: batches, os => os.take packets.length :: deal batches (os.drop packets.length)

variable {κ : Type} (sink : FrameSink κ)

/-- What became of each message of a run. -/
def fates (rs : List Request) (s : PacketStream κ) : List Fate :=
  deal (s.queued sink rs) (s.handovers sink rs)

/-! ## Runs that heed refusals -/

/-- A request that makes a stream hand out the packet in front: the one before it is through, or a message
is taken. -/
def Prompts (r : Request) (s : PacketStream κ) : Prop := r = .completed ∨ s.joins r ≠ []

/-- With a request, the link refuses a packet that is not the last of its message. -/
def RefusedMidway (r : Request) (s : PacketStream κ) : Prop :=
  ∃ p e, s.handed sink r = [(p, .error e)] ∧ p.number < p.total

/-- Nothing makes the stream hand out packets. -/
def Rests : List Request → PacketStream κ → Prop
  | [], _ => True
  | r :: rs, s => ¬ s.Prompts r ∧ Rests rs (s.serve sink r).2

/-- Once the link has refused a packet in the middle of a message, nothing makes the stream hand out
packets any more. -/
def Heeds : List Request → PacketStream κ → Prop
  | [], _ => True
  | r :: rs, s =>
    (s.RefusedMidway sink r → (s.serve sink r).2.Rests sink rs) ∧ Heeds rs (s.serve sink r).2

/-! ## A message has no gap if nothing follows a refusal -/

/-- A refusal is the last thing that happens to a message. -/
def Fate.Ends (fate : Fate) : Prop :=
  ∀ before p e after, fate = before ++ (p, .error e) :: after → after = []

/-- What holds of a message holds of what comes later of it. -/
theorem Fate.ends_cons {p : Packet} {a : Except LinkError Unit} {fate : Fate}
    (h : Fate.Ends ((p, a) :: fate)) : fate.Ends := by
  intro before q e after hfate
  exact h ((p, a) :: before) q e after (by rw [hfate, List.cons_append])

/-- As long as only the last packet was refused, those accepted are numbered without a gap. -/
theorem Fate.acceptedNumbers_eq {id total : UInt32} {fate : Fate} {pieces : List Bytes} {k : Nat}
    (h : fate.map Prod.fst <+: Packet.numbered id total k pieces) (ends : fate.Ends) :
    ∃ j, fate.acceptedNumbers = (List.range' k j).map UInt32.ofNat := by
  induction fate generalizing pieces k with
  | nil => exact ⟨0, rfl⟩
  | cons o fate ih =>
    obtain ⟨p, a⟩ := o
    rcases pieces with _ | ⟨piece, pieces⟩
    · exact absurd (List.prefix_nil.1 h) (List.cons_ne_nil _ _)
    obtain ⟨rfl, hrest⟩ := List.cons_prefix_cons.1 h
    cases a with
    | error e =>
      obtain rfl := ends [] _ e fate rfl
      exact ⟨0, rfl⟩
    | ok _ =>
      obtain ⟨j, hj⟩ := ih hrest (Fate.ends_cons ends)
      exact ⟨j + 1, congrArg (UInt32.ofNat k :: ·) hj⟩

/-- The link accepts the packets of a message without a gap exactly if a refusal is the last thing that happens
to it. -/
theorem Fate.gapless_iff_ends {fate : Fate} {packets : List Packet} (cut : Packet.Cut packets)
    (h : fate.map Prod.fst <+: packets) : fate.Gapless ↔ fate.Ends := by
  obtain ⟨id, pieces, hcount, rfl⟩ := cut
  constructor
  · rintro gapless before p e (_ | ⟨⟨q, a⟩, after⟩) rfl
    · rfl
    · exfalso
      have hincrease := (Packet.numbers_increase (by omega)).sublist h.sublist
      rw [List.map_append, List.map_cons, List.map_cons] at hincrease
      have hlt : p.number < q.number :=
        (List.pairwise_cons.1 (List.pairwise_append.1 hincrease).2.1).1 q List.mem_cons_self
      exact absurd (gapless.refused before p e [] q a after rfl hlt) List.not_mem_nil
  · intro ends
    refine ⟨Fate.acceptedNumbers_eq h ends, fun before p e between q a after hfate _ => ?_⟩
    have hnone := ends before p e _ hfate
    exact absurd hnone (List.append_ne_nil_of_right_ne_nil _ (List.cons_ne_nil _ _))

/-! ## From messages to runs -/

/-- After a packet that is not the last of its message was refused nothing is handed over. -/
def Fate.Heeded (os : Fate) : Prop :=
  ∀ before p e after, os = before ++ (p, .error e) :: after → p.number < p.total → after = []

/-- After a refusal in the middle of a message nothing follows, and what comes later is heeded too. -/
theorem Fate.heeded_cons {p : Packet} {a : Except LinkError Unit} {os : Fate} :
    Fate.Heeded ((p, a) :: os) ↔
      ((∃ e, a = .error e) → p.number < p.total → os = []) ∧ os.Heeded := by
  constructor
  · intro h
    refine ⟨?_, fun before q e after hos => ?_⟩
    · rintro ⟨e, rfl⟩
      exact h [] p e os rfl
    · exact h ((p, a) :: before) q e after (by rw [hos, List.cons_append])
  · rintro ⟨hfirst, hrest⟩ before q e after hos
    rcases List.cons_eq_append_iff.1 hos with ⟨rfl, hfront⟩ | ⟨before, rfl, hbehind⟩
    · obtain ⟨hpair, rfl⟩ := List.cons.inj hfront
      obtain ⟨rfl, rfl⟩ := Prod.mk.inj hpair
      exact hfirst ⟨e, rfl⟩
    · exact hrest before q e after hbehind

/-- One message, and what is handed over after it: either nothing, or the message went out whole. -/
theorem ends_and_heeded_iff {packets : List Packet} {fate rest : Fate} (cut : Packet.Cut packets)
    (first : fate.map Prod.fst <+: packets) (whole : rest = [] ∨ fate.map Prod.fst = packets) :
    fate.Ends ∧ rest.Heeded ↔ Fate.Heeded (fate ++ rest) := by
  constructor
  · rintro ⟨ends, heeded⟩ before p e after hsplit midway
    rcases List.append_eq_append_iff.1 hsplit with ⟨before', rfl, hbehind⟩ | ⟨after', hfront, hbehind⟩
    · exact heeded before' p e after hbehind midway
    rcases List.cons_eq_append_iff.1 hbehind with ⟨rfl, hbehind⟩ | ⟨after', rfl, rfl⟩
    · exact heeded [] p e after hbehind.symm midway
    · obtain rfl := ends before p e after' hfront
      -- the packet is the last one of the message, unless nothing comes after it
      rcases whole with hnone | hwhole
      · rw [hnone, List.nil_append]
      · rw [hfront, List.map_append, List.map_singleton] at hwhole
        have hlast : p.number = p.total := Packet.Cut.last (hwhole ▸ cut)
        rw [hlast] at midway
        exact absurd midway (UInt32.lt_irrefl _)
  · intro heeded
    refine ⟨fun before p e after hfront => ?_, fun before p e after hbehind => ?_⟩
    · by_contra hmore
      have hsplit : fate ++ rest = before ++ (p, .error e) :: (after ++ rest) := by
        rw [hfront, List.append_assoc, List.cons_append]
      have hmidway : p.number < p.total := by
        obtain ⟨behind, hpackets⟩ := first
        rw [hfront, List.map_append, List.map_cons, List.append_assoc, List.cons_append] at hpackets
        refine Packet.Cut.number_lt (hpackets ▸ cut) fun h => hmore ?_
        exact List.map_eq_nil_iff.1 (List.append_eq_nil_iff.1 h).1
      exact hmore (List.append_eq_nil_iff.1 (heeded before p e _ hsplit hmidway)).1
    · exact heeded (fate ++ before) p e after (by rw [hbehind, List.append_assoc])

/-- What is handed over is dealt out front to back: each message gets the first of its packets, all of
them unless nothing is left. -/
theorem deal_cons {packets : List Packet} {batches : List (List Packet)} {os : Fate}
    (h : os.map Prod.fst <+: (packets :: batches).flatten) :
    ∃ fate rest, os = fate ++ rest ∧ deal (packets :: batches) os = fate :: deal batches rest ∧
      fate.map Prod.fst <+: packets ∧ rest.map Prod.fst <+: batches.flatten ∧
      (rest = [] ∨ fate.map Prod.fst = packets) := by
  rw [List.flatten_cons] at h
  have hfate : (os.take packets.length).map Prod.fst <+: packets := by
    have htake := h.take packets.length
    rwa [List.take_left, ← List.map_take] at htake
  refine ⟨os.take packets.length, os.drop packets.length, (List.take_append_drop ..).symm, rfl, hfate,
    ?_, ?_⟩
  · have hdrop := h.drop packets.length
    rwa [List.drop_left, ← List.map_drop] at hdrop
  · by_cases hlength : os.length ≤ packets.length
    · exact .inl (List.drop_eq_nil_of_le hlength)
    · refine .inr (hfate.eq_of_length ?_)
      rw [List.length_map, List.length_take]
      omega

/-- What was dealt out to messages is what was handed over. -/
theorem flatten_deal {batches : List (List Packet)} {os : Fate}
    (h : os.map Prod.fst <+: batches.flatten) : (deal batches os).flatten = os := by
  induction batches generalizing os with
  | nil => exact (List.map_eq_nil_iff.1 (List.prefix_nil.1 h)).symm
  | cons packets batches ih =>
    obtain ⟨fate, rest, rfl, hdeal, _, hrest, _⟩ := deal_cons h
    rw [hdeal, List.flatten_cons, ih hrest]

/-- Each message gets packets of its own, from the first one on. -/
theorem prefix_deal {batches : List (List Packet)} {os : Fate}
    (h : os.map Prod.fst <+: batches.flatten) :
    List.Forall₂ (fun fate packets => fate.map Prod.fst <+: packets) (deal batches os) batches := by
  induction batches generalizing os with
  | nil => exact .nil
  | cons packets batches ih =>
    obtain ⟨fate, rest, rfl, hdeal, hfate, hrest, _⟩ := deal_cons h
    rw [hdeal]
    exact .cons hfate (ih hrest)

/-- No message has a gap exactly if refusals are heeded over all messages together. -/
theorem gapless_deal_iff {batches : List (List Packet)} {os : Fate}
    (cut : ∀ packets ∈ batches, Packet.Cut packets) (h : os.map Prod.fst <+: batches.flatten) :
    (∀ fate ∈ deal batches os, fate.Gapless) ↔ os.Heeded := by
  induction batches generalizing os with
  | nil =>
    obtain rfl : os = [] := List.map_eq_nil_iff.1 (List.prefix_nil.1 h)
    exact ⟨fun _ _ _ _ _ h => by simp at h, fun _ => List.forall_mem_nil _⟩
  | cons packets batches ih =>
    obtain ⟨hcut, hcuts⟩ := List.forall_mem_cons.1 cut
    obtain ⟨fate, rest, rfl, hdeal, hfate, hrest, hwhole⟩ := deal_cons h
    rw [hdeal, List.forall_mem_cons, ih hcuts hrest, Fate.gapless_iff_ends hcut hfate]
    exact ends_and_heeded_iff hcut hfate hwhole

/-! ## What the stream does after a refusal -/

/-- Packets wait, and none is under way. -/
structure Stalled (s : PacketStream κ) : Prop where
  /-- None is under way. -/
  ready : s.sender.inFlight = false
  /-- Packets wait. -/
  waiting : s.sender.queue ≠ []

/-- The queue ends with the last packet of a message. -/
def Rounded (queue : List Packet) : Prop := ∀ before p, queue = before ++ [p] → p.number = p.total

/-- What joins the queue with a request is a message in pieces, or nothing. -/
theorem cut_joins (r : Request) (s : PacketStream κ) : Packet.Cut (s.joins r) := by
  unfold joins
  split
  · split
    · exact Packet.cut_nil
    · split
      · next hsplit => exact Packet.cut_of_split hsplit
      · exact Packet.cut_nil
  · exact Packet.cut_nil

/-- So is what joins it with each request of a run. -/
theorem cut_queued (rs : List Request) (s : PacketStream κ) :
    ∀ packets ∈ s.queued sink rs, Packet.Cut packets := by
  induction rs generalizing s with
  | nil => exact List.forall_mem_nil _
  | cons r rs ih => exact List.forall_mem_cons.2 ⟨cut_joins r s, ih _⟩

variable {s : PacketStream κ}

/-- A queue of whole messages is one with another message behind it. -/
theorem Rounded.joins (h : Rounded s.sender.queue) (r : Request) :
    Rounded (s.sender.queue ++ s.joins r) := by
  intro before p hqueue
  rcases List.eq_nil_or_concat' (s.joins r) with hnone | ⟨packets, q, hjoins⟩
  · rw [hnone, List.append_nil] at hqueue
    exact h before p hqueue
  · have hcut := cut_joins r s
    rw [hjoins, ← List.append_assoc] at hqueue
    rw [hjoins, (List.append_singleton_inj.1 hqueue).2] at hcut
    exact hcut.last

/-- So it is after a request, since packets are taken from its front. -/
theorem Rounded.serve (h : Rounded s.sender.queue) (r : Request) :
    Rounded (s.serve sink r).2.sender.queue := by
  have hjoined := h.joins r
  rcases handed_cases sink r s with ⟨_, _, hqueue⟩ | ⟨p, a, _, _, hqueue, _⟩
  · rwa [hqueue]
  · intro before q hbehind
    refine hjoined (p :: before) q ?_
    rw [hqueue, hbehind, List.cons_append]

/-- After a refusal in the middle of a message the rest of the message waits. -/
theorem RefusedMidway.stalled {r : Request} (h : s.RefusedMidway sink r)
    (rounded : Rounded s.sender.queue) : (s.serve sink r).2.Stalled := by
  obtain ⟨p, e, hhanded, hmidway⟩ := h
  rcases handed_cases sink r s with ⟨hnone, _⟩ | ⟨q, a, hone, _, hqueue, hflight⟩
  · rw [hnone] at hhanded
    cases hhanded
  · rw [hone] at hhanded
    cases hhanded
    refine ⟨by simpa using hflight, fun hempty => ?_⟩
    rw [hempty] at hqueue
    rw [rounded.joins r [] p hqueue] at hmidway
    exact UInt32.lt_irrefl _ hmidway

/-- Where packets wait an attempt to send hands one over. -/
theorem Sent.offers_ne_nil {answer : Except StreamError Unit} {acts : List StreamAct}
    {s' : PacketStream κ} (h : Sent sink s answer acts s') (stalled : s.Stalled) :
    StreamAct.offers acts ≠ [] := by
  cases h with
  | nothing idle =>
    rcases idle with hflight | hempty
    · rw [stalled.ready] at hflight
      cases hflight
    · exact absurd hempty stalled.waiting
  | accepted _ _ _ | refused _ _ _ => exact List.cons_ne_nil _ _

/-- A stalled stream hands out a packet as soon as something makes it, and stays stalled until then. -/
theorem Stalled.serve (h : s.Stalled) (r : Request) :
    (s.Prompts r ∧ s.handed sink r ≠ []) ∨
      (¬ s.Prompts r ∧ s.handed sink r = [] ∧ (s.serve sink r).2.Stalled) := by
  have hoffers := offers_handed sink r s
  have hserved := served_serve sink r s
  have hnonempty : StreamAct.offers (s.serve sink r).1.acts ≠ [] → s.handed sink r ≠ [] := by
    intro hne hnone
    rw [hnone] at hoffers
    exact hne hoffers.symm
  have hempty : StreamAct.offers (s.serve sink r).1.acts = [] → s.handed sink r = [] := by
    intro hnone
    rw [hnone] at hoffers
    exact List.map_eq_nil_iff.1 hoffers
  unfold Prompts
  generalize s.joins r = packets, (s.serve sink r).1 = report, (s.serve sink r).2 = s' at *
  cases hserved with
  | written _ split sent =>
    refine .inl ⟨.inr (Packet.ne_nil_of_split split), hnonempty (sent.offers_ne_nil sink ⟨h.ready, ?_⟩)⟩
    exact List.append_ne_nil_of_left_ne_nil h.waiting _
  | through sent =>
    refine .inl ⟨.inl rfl, hnonempty ?_⟩
    rw [StreamAct.offers_append, offers_complaint, List.append_nil]
    exact sent.offers_ne_nil sink ⟨rfl, h.waiting⟩
  | unsplit _ _ =>
    exact .inr ⟨by simp, hempty rfl, h.ready, List.append_ne_nil_of_left_ne_nil h.waiting _⟩
  | tooLong _ | resized _ | cramped _ => exact .inr ⟨by simp, hempty rfl, h.ready, h.waiting⟩

/-- A stalled stream hands nothing over exactly if nothing makes it. -/
theorem Stalled.handovers_eq_nil_iff (h : s.Stalled) (rs : List Request) :
    s.handovers sink rs = [] ↔ s.Rests sink rs := by
  induction rs generalizing s with
  | nil => exact ⟨fun _ => trivial, fun _ => rfl⟩
  | cons r rs ih =>
    rw [handovers, List.append_eq_nil_iff, Rests]
    rcases h.serve sink r with ⟨hprompts, hhanded⟩ | ⟨hrests, hhanded, hstalled⟩
    · exact ⟨fun h => absurd h.1 hhanded, fun h => absurd hprompts h.1⟩
    · rw [ih hstalled]
      exact and_congr_left fun _ => ⟨fun _ => hrests, fun _ => hhanded⟩

/-- Refusals are heeded in what is handed over exactly if the requests heed them. -/
theorem heeded_handovers_iff (rs : List Request) (rounded : Rounded s.sender.queue) :
    Fate.Heeded (s.handovers sink rs) ↔ s.Heeds sink rs := by
  induction rs generalizing s with
  | nil => exact ⟨fun _ => trivial, fun _ _ _ _ _ h => by simp [handovers] at h⟩
  | cons r rs ih =>
    rw [handovers, Heeds, ← ih (rounded.serve sink r)]
    rcases handed_cases sink r s with ⟨hnone, _⟩ | ⟨p, a, hone, _⟩
    · rw [hnone, List.nil_append]
      refine ⟨fun h => ⟨?_, h⟩, fun h => h.2⟩
      rintro ⟨p, e, hhanded, _⟩
      rw [hnone] at hhanded
      cases hhanded
    · have hrefused : s.RefusedMidway sink r ↔ (∃ e, a = .error e) ∧ p.number < p.total := by
        constructor
        · rintro ⟨q, e, hhanded, hmidway⟩
          rw [hone] at hhanded
          cases hhanded
          exact ⟨⟨e, rfl⟩, hmidway⟩
        · rintro ⟨⟨e, rfl⟩, hmidway⟩
          exact ⟨p, e, hone, hmidway⟩
      rw [hone, List.singleton_append, Fate.heeded_cons]
      refine and_congr_left fun _ => ?_
      rw [← and_imp, ← hrefused]
      exact forall_congr' fun h => (h.stalled sink rounded).handovers_eq_nil_iff sink rs

/-! ## Gaps -/

/-- What is handed to the link over a run, refused or not, are the packets of the messages taken, from the
first one of each; and no message has a gap exactly if refusals are heeded. -/
theorem gapless_iff_heeds (idle : s.sender.queue = []) (rs : List Request) :
    (s.fates sink rs).flatten.map (fun o => (o.1.toBytes, o.2)) =
      StreamAct.offers (Report.actsOf (s.run sink rs).1) ∧
    List.Forall₂ (fun fate packets => fate.map Prod.fst <+: packets) (s.fates sink rs)
      (s.queued sink rs) ∧
    ((∀ fate ∈ s.fates sink rs, fate.Gapless) ↔ s.Heeds sink rs) := by
  have hprefix : (s.handovers sink rs).map Prod.fst <+: (s.queued sink rs).flatten := by
    have hqueue := queue_handovers sink rs s
    rw [idle, List.nil_append] at hqueue
    exact ⟨_, hqueue⟩
  have hrounded : Rounded s.sender.queue := by
    intro before p h
    rw [idle] at h
    simp at h
  unfold fates
  refine ⟨?_, prefix_deal hprefix, ?_⟩
  · rw [flatten_deal hprefix, offers_handovers]
  · rw [gapless_deal_iff (cut_queued sink rs s) hprefix, heeded_handovers_iff sink rs hrounded]

/-! ## A link that falters -/

/-- A link that refuses one frame and accepts all others. -/
def falters : FrameSink Bool where
  send _ refusing := (if refusing then .error .closed else .ok (), false)

/-- A stream over that link, with room for twelve bytes in a packet. -/
def faltering : PacketStream Bool where
  link := true
  role := .responder
  size := 24
  roomy := by decide
  limit := 200
  sender := ⟨0, [], false⟩
  receiver := .fresh

/-- The first packet of a message is refused, and the stream is left alone. -/
theorem gapless_left_alone :
    faltering.sender.queue = [] ∧
    (faltering.handovers falters [.write ⟨none, false, []⟩ .client]).map Prod.snd =
      [.error .closed] ∧
    ∀ fate ∈ faltering.fates falters [.write ⟨none, false, []⟩ .client], fate.Gapless := by
  refine ⟨rfl, by decide +kernel, ?_⟩
  exact (gapless_iff_heeds falters rfl [.write ⟨none, false, []⟩ .client]).2.2.2
    ⟨fun _ => trivial, trivial⟩

/-- The first packet of a message is refused, and then the link says that a packet is through: the second
packet of the message is the first one that the link accepts. -/
theorem not_gapless_after_completion :
    ∃ fate ∈ faltering.fates falters [.write ⟨none, false, []⟩ .client, .completed],
      fate.acceptedNumbers = [2] ∧ ¬ fate.Gapless := by
  refine ⟨_, List.mem_cons_self, by decide +kernel, fun gapless => ?_⟩
  obtain ⟨k, hk⟩ := gapless.accepted
  have haccepted : Fate.acceptedNumbers
      ((faltering.handovers falters [.write ⟨none, false, []⟩ .client, .completed]).take
        (faltering.joins (.write ⟨none, false, []⟩ .client)).length) = [2] := by
    decide +kernel
  rw [haccepted] at hk
  cases k with
  | zero => cases hk
  | succ k =>
    have hfirst : (2 : UInt32) = UInt32.ofNat 1 := (List.cons.inj hk).1
    exact absurd hfirst (by decide)

end PacketStream

end DevicePairing
