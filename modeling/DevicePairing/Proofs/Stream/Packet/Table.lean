import DevicePairing.Proofs.Stream.Packet.Early
import Mathlib.Data.List.Nodup
import Mathlib.Data.List.Perm.Basic

/-!
# The table of unfinished messages

Whatever frames come in, the table of unfinished messages stays small: it has at most `maxPending` entries,
none of them longer than a message may be, and every entry waits for its second packet or a later one. This is
`Receiver.Tidy`. `Receiver.Orderly` is what makes the oldest entry unique besides: no two entries have the same
stamp, and no stamp is ahead of the count of messages begun. A packet keeps the table tidy whatever comes of it,
and orderly as long as the count does not fall.

Where the oldest entry is unique, it does not matter in which order the table lists its entries.
`PacketStream.Runs` are the runs in which the table may be put in any other order before each input, as a map
without an order of its own would have it. `PacketStream.Runs.eq_doneOn` says that all of them do the same while
the table is orderly.
-/

namespace DevicePairing

namespace Receiver

variable {id : UInt32} {s s' : Receiver} {p : Packet} {u v : Unfinished} {rs rs' : List Unfinished}
  {limit : Nat}

/-! ## The oldest entry -/

/-- An entry of a list whose stamp is no higher than that of any other. -/
def IsOldest (u : Unfinished) (rs : List Unfinished) : Prop := u ∈ rs ∧ ∀ v ∈ rs, u.stamp ≤ v.stamp

/-- Entries of a list without equal stamps are told apart by their stamps. -/
theorem eq_of_stamp (stamps : (rs.map (·.stamp)).Nodup) (hu : u ∈ rs) (hv : v ∈ rs)
    (h : u.stamp = v.stamp) : u = v := List.inj_on_of_nodup_map stamps hu hv h

/-- Where stamps differ, only one entry is an oldest one. -/
theorem IsOldest.unique (stamps : (rs.map (·.stamp)).Nodup) (hu : IsOldest u rs) (hv : IsOldest v rs) :
    v = u :=
  eq_of_stamp stamps hv.1 hu.1 (UInt64.le_antisymm (hv.2 u hu.1) (hu.2 v hv.1))

/-- Which entries are oldest ones does not depend on the order of the list. -/
theorem IsOldest.of_perm (h : IsOldest u rs) (perm : rs.Perm rs') : IsOldest u rs' :=
  ⟨perm.mem_iff.1 h.1, fun v hv => h.2 v (perm.mem_iff.2 hv)⟩

/-- What is dropped from a list is an oldest entry of it. -/
theorem exists_oldest (h : rs ≠ []) : ∃ u, IsOldest u rs ∧ rs.Perm (u :: dropOldest rs) := by
  rcases hmin : (rs.map (·.stamp)).min? with _ | oldest
  · rw [List.min?_eq_none_iff, List.map_eq_nil_iff] at hmin
    exact absurd hmin h
  obtain ⟨hmem, hle⟩ := List.min?_eq_some_iff.1 hmin
  obtain ⟨w, hw, hstamp⟩ := List.mem_map.1 hmem
  obtain ⟨u, before, after, _, hu, hrs, herase⟩ :=
    List.exists_of_eraseP (p := fun r => decide (r.stamp = oldest)) hw (by simpa using hstamp)
  have hdrop : dropOldest rs = before ++ after := by
    unfold dropOldest
    rw [hmin]
    exact herase
  refine ⟨u, ⟨?_, fun v hv => ?_⟩, ?_⟩
  · rw [hrs]
    exact List.mem_append_right _ List.mem_cons_self
  · rw [of_decide_eq_true hu]
    exact hle _ (List.mem_map_of_mem hv)
  · rw [hdrop, hrs]
    exact List.perm_middle

/-- One entry is dropped, if there is any. -/
theorem length_dropOldest (rs : List Unfinished) : (dropOldest rs).length = rs.length - 1 := by
  rcases rs with _ | ⟨r, rs⟩
  · rfl
  · obtain ⟨u, _, hperm⟩ := exists_oldest (List.cons_ne_nil r rs)
    rw [hperm.length_eq, List.length_cons, Nat.add_sub_cancel]

/-- When room has been made, there is room for one more entry. -/
theorem length_makeRoom_lt (rs : List Unfinished) : (makeRoom rs).length < maxPending := by
  have hrepeat (n : Nat) : (Nat.repeat dropOldest n rs).length = rs.length - n := by
    induction n with
    | zero => rfl
    | succ n ih =>
      show (dropOldest (Nat.repeat dropOldest n rs)).length = _
      rw [length_dropOldest, ih]
      omega
  unfold makeRoom
  rw [hrepeat]
  unfold maxPending
  omega

/-! ## What is always so -/

/-- The table of unfinished messages is tidy, where messages may have a given length. -/
structure Tidy (limit : Nat) (s : Receiver) : Prop where
  /-- It has few entries. -/
  few : s.pending.length ≤ maxPending
  /-- None is too long. -/
  short : ∀ u ∈ s.pending, u.data.length ≤ limit
  /-- A packet has arrived of every one. -/
  begun : ∀ u ∈ s.pending, 2 ≤ u.next
  /-- No message has two entries. -/
  messages : (s.pending.map (·.message)).Nodup

/-- A receiver to which nothing has come has a tidy table. -/
theorem tidy_fresh (limit : Nat) : fresh.Tidy limit where
  few := Nat.zero_le _
  short := List.forall_mem_nil _
  begun := List.forall_mem_nil _
  messages := List.nodup_nil

/-- Entries may be dropped from a tidy table. -/
theorem Tidy.of_sublist (h : s.Tidy limit) (entries : s'.pending.Sublist s.pending) : s'.Tidy limit where
  few := entries.length_le.trans h.few
  short u hu := h.short u (entries.subset hu)
  begun u hu := h.begun u (entries.subset hu)
  messages := h.messages.sublist (entries.map _)

/-- To give up a message is to drop entries. -/
theorem forget_sublist (id : UInt32) (s : Receiver) : (s.forget id).pending.Sublist s.pending :=
  List.filter_sublist

/-- A table in which room has been made for a message is tidy. -/
theorem Tidy.opened (h : s.Tidy limit) (id : UInt32) : (s.opened id).2.Tidy limit :=
  h.of_sublist (pending_opened_sublist id s)

/-- There is room for the message that is opened. -/
theorem Tidy.room (h : s.Tidy limit) (id : UInt32) :
    ((s.opened id).2.forget id).pending.length < maxPending := by
  rcases hfind : s.find? id with _ | u
  · rw [opened_of_none hfind]
    exact Nat.lt_of_le_of_lt (forget_sublist id _).length_le (length_makeRoom_lt s.pending)
  · rw [opened_of_find? hfind]
    obtain ⟨hmem, hid⟩ := mem_of_find? hfind
    refine Nat.lt_of_lt_of_le ?_ h.few
    exact List.length_filter_lt_length_iff_exists.2 ⟨u, hmem, by simpa using hid⟩

/-- The packet after one that others follow is not the first, since numbers stay below the total. -/
theorem two_le_next (sensible : p.number ≠ 0 ∧ ¬ p.total < p.number) (more : p.number ≠ p.total) :
    2 ≤ p.number + 1 := by
  obtain ⟨hpositive, hamong⟩ := sensible
  have hnumber : p.number.toNat ≠ 0 := fun h => hpositive (UInt32.toNat_inj.1 h)
  have hless : p.number.toNat < p.total.toNat := by
    have hle : p.number.toNat ≤ p.total.toNat := by
      rw [UInt32.lt_iff_toNat_lt] at hamong
      exact Nat.not_lt.1 hamong
    exact Nat.lt_of_le_of_ne hle fun h => more (UInt32.toNat_inj.1 h)
  have hbound := p.total.toNat_lt
  rw [UInt32.le_iff_toNat_le, UInt32.toNat_add]
  have hone : (1 : UInt32).toNat = 1 := rfl
  have htwo : (2 : UInt32).toNat = 2 := rfl
  rw [hone, htwo, Nat.mod_eq_of_lt (by omega)]
  omega

/-- The entries after a packet has been recorded: those of other messages, and that of its own. -/
theorem pending_put_extended (p : Packet) (s : Receiver) :
    ((s.opened p.message).2.put (s.extended p)).pending =
      ((s.opened p.message).2.forget p.message).pending ++ [s.extended p] := by
  unfold put
  rw [message_extended]

/-- What holds of the entries that are kept and of the one that is recorded holds of all. -/
theorem forall_mem_put_extended {P : Unfinished → Prop}
    (kept : ∀ u ∈ ((s.opened p.message).2.forget p.message).pending, P u) (recorded : P (s.extended p)) :
    ∀ u ∈ ((s.opened p.message).2.put (s.extended p)).pending, P u := by
  rw [pending_put_extended]
  exact List.forall_mem_append.2 ⟨kept, List.forall_mem_singleton.2 recorded⟩

/-- The table stays tidy when one more packet of a message is recorded. -/
theorem Tidy.stored (h : s.Tidy limit) (sensible : p.number ≠ 0 ∧ ¬ p.total < p.number)
    (short : (s.gathered p.message ++ p.payload).length ≤ limit) (more : p.number ≠ p.total) :
    ((s.opened p.message).2.put (s.extended p)).Tidy limit := by
  have hopened := h.opened p.message
  have hforget : ((s.opened p.message).2.forget p.message).Tidy limit :=
    hopened.of_sublist (forget_sublist ..)
  refine ⟨?_, forall_mem_put_extended hforget.short short,
    forall_mem_put_extended hforget.begun (two_le_next sensible more), nodup_put hopened.messages _⟩
  rw [pending_put_extended, List.length_append, List.length_singleton]
  exact h.room p.message

/-- A packet that was read keeps the table tidy, whatever comes of it. -/
theorem Tidy.accept (h : s.Tidy limit) (sensible : p.number ≠ 0 ∧ ¬ p.total < p.number) :
    (s.accept limit p).2.Tidy limit := by
  have haccepted := s.accepted_accept limit p
  generalize (s.accept limit p).1 = outcome, (s.accept limit p).2 = s' at *
  have hforget := (h.opened p.message).of_sublist (forget_sublist p.message _)
  cases haccepted with
  | repeated _ => exact h
  | stray _ _ => exact h.of_sublist (forget_sublist ..)
  | tooLong _ _ _ => exact hforget
  | stored _ _ short more => exact h.stored sensible short more
  | completed _ _ _ _ => exact hforget.of_sublist (List.Sublist.refl _)

/-! ## What the stamps tell -/

/-- The table of unfinished messages is tidy, and its entries are told apart by their stamps. -/
structure Orderly (limit : Nat) (s : Receiver) : Prop extends Tidy limit s where
  /-- No two entries have the same stamp. -/
  stamps : (s.pending.map (·.stamp)).Nodup
  /-- No stamp is ahead of the count. -/
  stamped : ∀ u ∈ s.pending, u.stamp ≤ s.started

/-- A receiver to which nothing has come has an orderly table. -/
theorem orderly_fresh (limit : Nat) : fresh.Orderly limit where
  toTidy := tidy_fresh limit
  stamps := List.nodup_nil
  stamped := List.forall_mem_nil _

/-- Entries may be dropped from an orderly table, and the count of messages may grow. -/
theorem Orderly.of_sublist (h : s.Orderly limit) (entries : s'.pending.Sublist s.pending)
    (onward : s.started ≤ s'.started) : s'.Orderly limit where
  toTidy := h.toTidy.of_sublist entries
  stamps := h.stamps.sublist (entries.map _)
  stamped u hu := UInt64.le_trans (h.stamped u (entries.subset hu)) onward

/-- A table is orderly when no message is left in it that was begun before the count started over. -/
theorem Tidy.orderly_of_zero (h : s.Tidy limit) (zero : ∀ u ∈ s.pending, u.stamp = 0)
    (alone : ∀ u ∈ s.pending, ∀ v ∈ s.pending, v = u) : s.Orderly limit where
  toTidy := h
  stamps := (h.messages.of_map _).map_on fun u hu v hv _ => alone v hv u hu
  stamped u hu := zero u hu ▸ UInt64.zero_le

/-- The message that is opened has a stamp of its own, which is not ahead, unless the count falls with it. -/
theorem Orderly.stamp_opened (h : s.Orderly limit) (id : UInt32)
    (onward : s.started ≤ (s.opened id).2.started) :
    (s.opened id).1.stamp ≤ (s.opened id).2.started ∧
      ∀ v ∈ (s.opened id).2.pending, v.message ≠ id → v.stamp ≠ (s.opened id).1.stamp := by
  rcases hfind : s.find? id with _ | u
  · rw [opened_of_none hfind] at onward ⊢
    refine ⟨UInt64.le_refl _, fun v hv _ => UInt64.ne_of_lt ?_⟩
    have hgrown : s.started < s.started + 1 := UInt64.lt_of_le_of_ne onward (by simp)
    exact UInt64.lt_of_le_of_lt (h.stamped v ((makeRoom_sublist s.pending).subset hv)) hgrown
  · rw [opened_of_find? hfind]
    obtain ⟨hmem, hid⟩ := mem_of_find? hfind
    refine ⟨h.stamped u hmem, fun v hv hother hstamp => hother ?_⟩
    rw [eq_of_stamp h.stamps hv hmem hstamp, hid]

/-- The table stays orderly when one more packet of a message is recorded, unless the count falls. -/
theorem Orderly.stored (h : s.Orderly limit) (sensible : p.number ≠ 0 ∧ ¬ p.total < p.number)
    (short : (s.gathered p.message ++ p.payload).length ≤ limit) (more : p.number ≠ p.total)
    (onward : s.started ≤ (s.opened p.message).2.started) :
    ((s.opened p.message).2.put (s.extended p)).Orderly limit := by
  have hforget : ((s.opened p.message).2.forget p.message).Orderly limit :=
    h.of_sublist ((forget_sublist ..).trans (pending_opened_sublist ..)) onward
  obtain ⟨hstamped, hown⟩ := h.stamp_opened p.message onward
  refine ⟨h.toTidy.stored sensible short more, ?_, forall_mem_put_extended hforget.stamped hstamped⟩
  rw [pending_put_extended, List.map_append, List.map_singleton, List.nodup_append]
  refine ⟨hforget.stamps, List.pairwise_singleton _ _, ?_⟩
  rintro stamp hstamp _ hnew rfl
  obtain ⟨v, hv, rfl⟩ := List.mem_map.1 hstamp
  obtain ⟨hmem, hother⟩ := mem_forget_iff.1 hv
  exact hown v hmem hother (List.mem_singleton.1 hnew)

/-- A packet that was read keeps the table orderly, unless the count falls with it. -/
theorem Orderly.accept (h : s.Orderly limit) (sensible : p.number ≠ 0 ∧ ¬ p.total < p.number)
    (onward : s.started ≤ (s.accept limit p).2.started) : (s.accept limit p).2.Orderly limit := by
  have haccepted := s.accepted_accept limit p
  generalize (s.accept limit p).1 = outcome, (s.accept limit p).2 = s' at *
  have hforget (grown : s.started ≤ (s.opened p.message).2.started) :
      ((s.opened p.message).2.forget p.message).Orderly limit :=
    h.of_sublist ((forget_sublist ..).trans (pending_opened_sublist ..)) grown
  cases haccepted with
  | repeated _ => exact h
  | stray _ _ => exact h.of_sublist (forget_sublist ..) onward
  | tooLong _ _ _ => exact hforget onward
  | stored _ _ short more => exact h.stored sensible short more onward
  | completed _ _ _ _ => exact (hforget onward).of_sublist (List.Sublist.refl _) (UInt64.le_refl _)

/-! ## Another order of the table -/

/-- Two receivers differ at most in the order in which their tables list the entries. -/
structure Reordered (s s' : Receiver) : Prop where
  /-- Both have seen versions, or none. -/
  exchanged : s'.exchanged = s.exchanged
  /-- Their tables have the same entries. -/
  pending : s.pending.Perm s'.pending
  /-- As many messages were begun. -/
  started : s'.started = s.started
  /-- The same message was completed last. -/
  lastCompleted : s'.lastCompleted = s.lastCompleted

/-- A receiver differs from itself in no order. -/
theorem Reordered.refl (s : Receiver) : Reordered s s := ⟨rfl, .refl _, rfl, rfl⟩

/-- To order a table twice is to order it. -/
theorem Reordered.trans {s'' : Receiver} (h : Reordered s s') (h' : Reordered s' s'') :
    Reordered s s'' where
  exchanged := h'.exchanged.trans h.exchanged
  pending := h.pending.trans h'.pending
  started := h'.started.trans h.started
  lastCompleted := h'.lastCompleted.trans h.lastCompleted

/-- Whether a table is tidy does not depend on its order. -/
theorem Reordered.tidy (h : Reordered s s') (tidy : s.Tidy limit) : s'.Tidy limit where
  few := h.pending.length_eq ▸ tidy.few
  short u hu := tidy.short u (h.pending.mem_iff.2 hu)
  begun u hu := tidy.begun u (h.pending.mem_iff.2 hu)
  messages := (h.pending.map _).nodup_iff.1 tidy.messages

/-- Whether a table is orderly does not depend on its order. -/
theorem Reordered.orderly (h : Reordered s s') (orderly : s.Orderly limit) : s'.Orderly limit where
  toTidy := h.tidy orderly.toTidy
  stamps := (h.pending.map _).nodup_iff.1 orderly.stamps
  stamped u hu := h.started ▸ orderly.stamped u (h.pending.mem_iff.2 hu)

/-- What has arrived of a message does not depend on the order of the table. -/
theorem Reordered.find? (h : Reordered s s') (messages : (s.pending.map (·.message)).Nodup)
    (id : UInt32) : s'.find? id = s.find? id := by
  rcases hfind : s.find? id with _ | u
  · rw [find?_eq_none_iff] at hfind ⊢
    exact fun u hu => hfind u (h.pending.mem_iff.2 hu)
  · obtain ⟨hu, hid⟩ := mem_of_find? hfind
    rcases hfind' : s'.find? id with _ | v
    · exact absurd hid (find?_eq_none_iff.1 hfind' u (h.pending.mem_iff.1 hu))
    · obtain ⟨hv, hid'⟩ := mem_of_find? hfind'
      rw [List.inj_on_of_nodup_map messages hu (h.pending.mem_iff.2 hv) (hid.trans hid'.symm)]

/-- The entry that is dropped does not depend on the order of the table. -/
theorem perm_dropOldest (stamps : (rs.map (·.stamp)).Nodup) (perm : rs.Perm rs') :
    (dropOldest rs).Perm (dropOldest rs') := by
  rcases eq_or_ne rs [] with rfl | hrs
  · rw [List.nil_perm.1 perm]
  obtain ⟨u, hu, hdrop⟩ := exists_oldest hrs
  obtain ⟨v, hv, hdrop'⟩ := exists_oldest fun hnil => hrs (List.perm_nil.1 (hnil ▸ perm))
  have hsame : v = u := hu.unique stamps (hv.of_perm perm.symm)
  rw [hsame] at hdrop'
  exact (hdrop.symm.trans (perm.trans hdrop')).cons_inv

/-- If stamps tell the entries apart, room is made by the same entry whatever the order. -/
theorem perm_makeRoom (stamps : (rs.map (·.stamp)).Nodup) (perm : rs.Perm rs') :
    (makeRoom rs).Perm (makeRoom rs') := by
  have hrepeat (n : Nat) : (Nat.repeat dropOldest n rs).Sublist rs ∧
      (Nat.repeat dropOldest n rs).Perm (Nat.repeat dropOldest n rs') := by
    induction n with
    | zero => exact ⟨List.Sublist.refl rs, perm⟩
    | succ n ih =>
      obtain ⟨hsub, hperm⟩ := ih
      exact ⟨(dropOldest_sublist _).trans hsub, perm_dropOldest (stamps.sublist (hsub.map _)) hperm⟩
  unfold makeRoom
  rw [perm.length_eq]
  exact (hrepeat _).2

/-- To forget a message does not depend on the order. -/
theorem Reordered.forget (h : Reordered s s') (id : UInt32) : Reordered (s.forget id) (s'.forget id) :=
  ⟨h.exchanged, h.pending.filter _, h.started, h.lastCompleted⟩

/-- Nor does to put an entry in. -/
theorem Reordered.put (h : Reordered s s') (r : Unfinished) : Reordered (s.put r) (s'.put r) :=
  ⟨h.exchanged, (h.forget r.message).pending.append_right [r], h.started, h.lastCompleted⟩

/-- Nor does to open a message, since the oldest entry is known by its stamp. -/
theorem Reordered.opened (h : Reordered s s') (orderly : s.Orderly limit) (id : UInt32) :
    (s'.opened id).1 = (s.opened id).1 ∧ Reordered (s.opened id).2 (s'.opened id).2 := by
  have hfind := h.find? orderly.messages id
  rcases hs : s.find? id with _ | u
  · rw [opened_of_none hs, opened_of_none (hfind.trans hs), h.started]
    exact ⟨rfl, h.exchanged, perm_makeRoom orderly.stamps h.pending, rfl, h.lastCompleted⟩
  · rw [opened_of_find? hs, opened_of_find? (hfind.trans hs)]
    exact ⟨rfl, h⟩

/-- What comes of a packet does not depend on the order of the table. -/
theorem Reordered.accept (h : Reordered s s') (orderly : s.Orderly limit) (p : Packet) :
    (s'.accept limit p).1 = (s.accept limit p).1 ∧
      Reordered (s.accept limit p).2 (s'.accept limit p).2 := by
  have hexpected : s'.expected p.message = s.expected p.message := by
    unfold expected
    rw [h.find? orderly.messages]
  have hrepeated : s'.isRepeated p ↔ s.isRepeated p := by
    unfold isRepeated
    rw [h.lastCompleted, hexpected]
  obtain ⟨hentry, hopened⟩ := h.opened orderly p.message
  unfold Receiver.accept
  by_cases seen : s.isRepeated p
  · rw [if_pos seen, if_pos (hrepeated.2 seen)]
    exact ⟨rfl, h⟩
  rw [if_neg seen, if_neg (mt hrepeated.1 seen), hexpected]
  by_cases other : p.number ≠ s.expected p.message
  · rw [if_pos other, if_pos other]
    exact ⟨rfl, h.forget p.message⟩
  rw [if_neg other, if_neg other]
  dsimp only
  rw [hentry]
  by_cases long : limit < ((s.opened p.message).1.data ++ p.payload).length
  · rw [if_pos long, if_pos long]
    exact ⟨rfl, hopened.forget p.message⟩
  rw [if_neg long, if_neg long]
  by_cases more : p.number ≠ p.total
  · rw [if_pos more, if_pos more]
    exact ⟨rfl, hopened.put _⟩
  · rw [if_neg more, if_neg more]
    have hforget := hopened.forget p.message
    exact ⟨rfl, hforget.exchanged, hforget.pending, hforget.started, rfl⟩

end Receiver

namespace PacketStream

variable {κ : Type} (sink : FrameSink κ) {s s' : PacketStream κ}

/-- What the stream does on inputs one after another. -/
def doneOn : List Input → PacketStream κ → List StreamAct
  | [], _ => []
  | i :: is, s => (s.take sink i).1 ++ doneOn is (s.take sink i).2

/-! ## The table along a run -/

/-- What becomes of the receiving side with a frame: at most a note that versions are exchanged, or what comes
of a packet. -/
theorem receiver_feed (frame : Bytes) (s : PacketStream κ) :
    (s.feed sink frame).2.limit = s.limit ∧
      ((s.receipt frame = none ∧
          ∃ exchanged, (s.feed sink frame).2.receiver = { s.receiver with exchanged }) ∨
        ∃ p, s.receipt frame = some (p, (s.receiver.accept s.limit p).1) ∧
          (s.feed sink frame).2.receiver = (s.receiver.accept s.limit p).2) := by
  unfold feed receipt
  by_cases hexchanged : s.receiver.exchanged = true
  · rw [if_pos hexchanged, if_pos hexchanged]
    rcases hparse : Packet.parse frame with e | p
    · exact ⟨rfl, .inl ⟨rfl, _, rfl⟩⟩
    · exact ⟨rfl, .inr ⟨p, rfl, rfl⟩⟩
  · rw [if_neg hexchanged, if_neg hexchanged]
    have h := exchanged_exchange sink frame s
    generalize s.exchange sink frame = result at h
    obtain ⟨answer, acts, s'⟩ := result
    cases h with
    | refused _ | answers _ _ | answered _ _ | unanswered _ => exact ⟨rfl, .inl ⟨rfl, _, rfl⟩⟩

/-- The table of a stream is tidy, for messages as long as the stream allows. -/
def Tidy (limit : Nat) (s : PacketStream κ) : Prop := s.limit = limit ∧ s.receiver.Tidy limit

/-- Whatever happens to a stream, its table stays tidy. -/
theorem Tidy.take {limit : Nat} (h : s.Tidy limit) (i : Input) : (s.take sink i).2.Tidy limit := by
  obtain ⟨rfl, htidy⟩ := h
  cases i with
  | asked r =>
    have hserved := served_serve sink r s
    exact ⟨hserved.limit, hserved.receiver ▸ htidy⟩
  | begun => exact ⟨rfl, htidy⟩
  | fed frame =>
    obtain ⟨hlimit, ⟨_, exchanged, hreceiver⟩ | ⟨p, receipt, hreceiver⟩⟩ := receiver_feed sink frame s
    · refine ⟨hlimit, ?_⟩
      show (s.feed sink frame).2.receiver.Tidy s.limit
      rw [hreceiver]
      exact htidy.of_sublist (List.Sublist.refl _)
    · refine ⟨hlimit, ?_⟩
      show (s.feed sink frame).2.receiver.Tidy s.limit
      rw [hreceiver]
      exact htidy.accept (Packet.sensible_of_parse (receipt_eq_some_iff.1 receipt).2.1)

/-- In every run the table of a stream stays tidy. -/
theorem Tidy.takeAll {limit : Nat} (h : s.Tidy limit) (is : List Input) :
    (s.takeAll sink is).Tidy limit := by
  induction is generalizing s with
  | nil => exact h
  | cons i is ih => exact ih (h.take sink i)

/-- A new stream has a tidy table. -/
theorem tidy_ofConfig {link : κ} {c : Config} {role : OfferRole}
    (made : ofConfig link c role = .ok s) : s.Tidy c.maxMessageSize := by
  unfold ofConfig at made
  split at made
  · cases made
    exact ⟨rfl, Receiver.tidy_fresh _⟩
  · cases made

/-- An input keeps the table orderly, unless the count of messages begun falls with it. -/
theorem orderly_take {limit : Nat} (same : s.limit = limit) (orderly : s.receiver.Orderly limit) (i : Input)
    (onward : s.receiver.started ≤ (s.take sink i).2.receiver.started) :
    (s.take sink i).2.receiver.Orderly limit := by
  subst same
  cases i with
  | asked r =>
    have hserved := served_serve sink r s
    exact hserved.receiver ▸ orderly
  | begun => exact orderly
  | fed frame =>
    change s.receiver.started ≤ (s.feed sink frame).2.receiver.started at onward
    show (s.feed sink frame).2.receiver.Orderly s.limit
    obtain ⟨_, ⟨_, exchanged, hreceiver⟩ | ⟨p, receipt, hreceiver⟩⟩ := receiver_feed sink frame s
    · rw [hreceiver]
      exact orderly.of_sublist (List.Sublist.refl _) (UInt64.le_refl _)
    · rw [hreceiver] at onward ⊢
      exact orderly.accept (Packet.sensible_of_parse (receipt_eq_some_iff.1 receipt).2.1) onward

/-! ## A table in any order -/

/-- The stream with another receiving side. -/
def withReceiver (receiver : Receiver) (s : PacketStream κ) : PacketStream κ := { s with receiver }

/-- Two streams differ at most in the order of their tables. -/
def Reordered (s s' : PacketStream κ) : Prop :=
  ∃ receiver, s' = s.withReceiver receiver ∧ s.receiver.Reordered receiver

/-- The sending side goes its way whatever was received. -/
theorem sendNext_withReceiver (receiver : Receiver) (s : PacketStream κ) :
    (s.withReceiver receiver).sendNext sink =
      ((s.sendNext sink).1, (s.sendNext sink).2.1, (s.sendNext sink).2.2.withReceiver receiver) := by
  obtain ⟨link, role, size, roomy, limit, ⟨nextMessage, queue, inFlight⟩, former⟩ := s
  cases inFlight with
  | true => rfl
  | false =>
    rcases queue with _ | ⟨p, queue⟩
    · rfl
    · rcases hsend : sink.send p.toBytes link with ⟨_ | _, link'⟩ <;>
        simp [sendNext, hand, withReceiver, hsend]

/-- Requests have nothing to do with the receiving side. -/
theorem serve_withReceiver (receiver : Receiver) (r : Request) (s : PacketStream κ) :
    (s.withReceiver receiver).serve sink r =
      ((s.serve sink r).1, (s.serve sink r).2.withReceiver receiver) := by
  cases r with
  | write m op =>
    by_cases long : s.limit < (Envelope.encode m op).length
    · simp [serve, write, withReceiver, long]
    rcases hsplit : Packet.split (Envelope.encode m op) s.sender.nextMessage s.size with e | packets
    · simp [serve, write, withReceiver, long, hsplit]
    · have hnext := sendNext_withReceiver sink receiver (s.enqueue packets)
      simp only [enqueue, withReceiver] at hnext
      simp [serve, write, withReceiver, long, hsplit, hnext]
  | completed =>
    have hnext := sendNext_withReceiver sink receiver s.landed
    rcases hsent : s.landed.sendNext sink with ⟨_ | _, acts, s'⟩ <;>
    · rw [hsent] at hnext
      simp only [landed, withReceiver] at hnext hsent
      simp [serve, completed, withReceiver, hsent, hnext]
  | resize size =>
    by_cases hroomy : packetHeaderSize < size <;> simp [serve, setSize, withReceiver, hroomy]

/-- Nor has the beginning of the exchange. -/
theorem begin_withReceiver (receiver : Receiver) (s : PacketStream κ) :
    (s.withReceiver receiver).begin sink =
      ((s.begin sink).1, (s.begin sink).2.1, (s.begin sink).2.2.withReceiver receiver) := rfl

/-- A stream differs from itself in no order. -/
theorem Reordered.refl (s : PacketStream κ) : s.Reordered s := ⟨s.receiver, rfl, .refl _⟩

/-- To order the table of a stream twice is to order it. -/
theorem Reordered.trans {s'' : PacketStream κ} (h : s.Reordered s') (h' : s'.Reordered s'') :
    s.Reordered s'' := by
  obtain ⟨receiver, rfl, hreceiver⟩ := h
  obtain ⟨receiver', rfl, hreceiver'⟩ := h'
  exact ⟨receiver', rfl, hreceiver.trans hreceiver'⟩

/-- The table may be listed backwards. -/
theorem reordered_reverse (s : PacketStream κ) :
    s.Reordered (s.withReceiver { s.receiver with pending := s.receiver.pending.reverse }) :=
  ⟨_, rfl, rfl, (List.reverse_perm s.receiver.pending).symm, rfl, rfl⟩

/-- A statement of versions is taken in the same way, whatever the order of the table. -/
theorem Reordered.exchange (h : s.Reordered s') (frame : Bytes) :
    (s'.exchange sink frame).1 = (s.exchange sink frame).1 ∧
      (s'.exchange sink frame).2.1 = (s.exchange sink frame).2.1 ∧
      (s.exchange sink frame).2.2.Reordered (s'.exchange sink frame).2.2 := by
  obtain ⟨receiver, rfl, hreceiver⟩ := h
  have hnoted : ({ s.receiver with exchanged := true } : Receiver).Reordered
      { receiver with exchanged := true } :=
    ⟨rfl, hreceiver.pending, hreceiver.started, hreceiver.lastCompleted⟩
  unfold PacketStream.exchange
  rcases VersionOffer.decode? frame with _ | offer
  · exact ⟨rfl, rfl, receiver, rfl, hreceiver⟩
  dsimp only
  by_cases compatible : offer.compatible = true
  · rw [if_pos compatible, if_pos compatible, begin_withReceiver]
    rw [show (s.withReceiver receiver).role = s.role from rfl]
    rcases s.role with _ | _
    · dsimp only
      rcases hbegin : s.begin sink with ⟨_ | _, acts, t⟩
      all_goals
        have hkept : s.receiver = t.receiver := congrArg (·.2.2.receiver) hbegin
        rw [hkept] at hreceiver hnoted
      · exact ⟨rfl, rfl, receiver, rfl, hreceiver⟩
      · exact ⟨rfl, rfl, _, rfl, hnoted⟩
    · exact ⟨rfl, rfl, _, rfl, hnoted⟩
  · rw [if_neg compatible, if_neg compatible]
    exact ⟨rfl, rfl, receiver, rfl, hreceiver⟩

/-- A frame is taken in the same way, whatever the order of the table. -/
theorem Reordered.feed {limit : Nat} (h : s.Reordered s') (same : s.limit = limit)
    (orderly : s.receiver.Orderly limit) (frame : Bytes) :
    (s'.feed sink frame).1 = (s.feed sink frame).1 ∧
      (s.feed sink frame).2.Reordered (s'.feed sink frame).2 := by
  have hexchange := h.exchange sink frame
  obtain ⟨receiver, rfl, hreceiver⟩ := h
  unfold PacketStream.feed
  rw [show (s.withReceiver receiver).receiver.exchanged = s.receiver.exchanged from hreceiver.exchanged]
  by_cases hexchanged : s.receiver.exchanged = true
  · rw [if_pos hexchanged, if_pos hexchanged]
    rcases Packet.parse frame with e | p
    · exact ⟨rfl, receiver, rfl, hreceiver⟩
    · obtain ⟨hsame, hnext⟩ := hreceiver.accept orderly p
      rw [← same] at hsame hnext
      exact ⟨congrArg told hsame, _, rfl, hnext⟩
  · rw [if_neg hexchanged, if_neg hexchanged]
    obtain ⟨hanswer, hacts, hnext⟩ := hexchange
    rcases hs : s.exchange sink frame with ⟨answer, acts, t⟩
    rcases hs' : (s.withReceiver receiver).exchange sink frame with ⟨answer', acts', t'⟩
    rw [hs, hs'] at hanswer hacts hnext
    dsimp only at hanswer hacts hnext
    subst hanswer hacts
    rcases answer' with _ | _ <;> exact ⟨rfl, hnext⟩

/-- The stream does the same on an input, whatever the order of the table. -/
theorem Reordered.take {limit : Nat} (h : s.Reordered s') (same : s.limit = limit)
    (orderly : s.receiver.Orderly limit) (i : Input) :
    (s'.take sink i).1 = (s.take sink i).1 ∧ (s.take sink i).2.Reordered (s'.take sink i).2 := by
  cases i with
  | asked r =>
    obtain ⟨receiver, rfl, hreceiver⟩ := h
    have hserve := serve_withReceiver sink receiver r s
    refine ⟨congrArg (·.1.acts) hserve, receiver, congrArg (·.2) hserve, ?_⟩
    exact (served_serve sink r s).receiver ▸ hreceiver
  | begun =>
    obtain ⟨receiver, rfl, hreceiver⟩ := h
    exact ⟨rfl, receiver, rfl, hreceiver⟩
  | fed frame => exact h.feed sink same orderly frame

/-- A stream may do this on inputs one after another and end so, if before each of them its table may be put in
any order. -/
inductive Runs : PacketStream κ → List Input → List StreamAct → PacketStream κ → Prop where
  /-- Nothing happens. -/
  | done (s : PacketStream κ) : Runs s [] [] s
  /-- The table is put in some order, and an input is taken. -/
  | taken {s t s' : PacketStream κ} {i : Input} {is : List Input} {acts : List StreamAct}
    (reordered : s.Reordered t) (rest : Runs (t.take sink i).2 is acts s') :
    Runs s (i :: is) ((t.take sink i).1 ++ acts) s'

/-- The table may be left as it is. -/
theorem runs_takeAll (is : List Input) (s : PacketStream κ) :
    Runs sink s is (s.doneOn sink is) (s.takeAll sink is) := by
  induction is generalizing s with
  | nil => exact .done s
  | cons i is ih => exact .taken (.refl s) (ih _)

variable {sink}

/-- All runs on the same inputs do the same, as long as the table is orderly. -/
theorem Runs.eq_doneOn {limit : Nat} {is : List Input} {acts : List StreamAct} (h : Runs sink s is acts s')
    {s₀ : PacketStream κ} (reordered : s₀.Reordered s) (tidy : s₀.Tidy limit)
    (orderly : ∀ before, before <+: is → (s₀.takeAll sink before).receiver.Orderly limit) :
    acts = s₀.doneOn sink is ∧ (s₀.takeAll sink is).Reordered s' := by
  induction h generalizing s₀ with
  | done s => exact ⟨rfl, reordered⟩
  | @taken s t s' i is acts first _ ih =>
    have hnow : s₀.receiver.Orderly limit := orderly [] List.nil_prefix
    obtain ⟨hsame, hnext⟩ := (reordered.trans first).take sink tidy.1 hnow i
    obtain ⟨hacts, hlast⟩ := ih hnext (tidy.take sink i) fun before hbefore =>
      orderly (i :: before) (List.cons_prefix_cons.2 ⟨rfl, hbefore⟩)
    exact ⟨by rw [hsame, hacts, doneOn], hlast⟩

end PacketStream

end DevicePairing
