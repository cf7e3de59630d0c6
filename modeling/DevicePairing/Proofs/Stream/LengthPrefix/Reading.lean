import DevicePairing.Stream.LengthPrefix

/-!
# Bytes read as frames

A link that carries bytes may cut them anywhere. A length-prefixed stream is not affected by the cuts: what
its listener is told is what the bytes read as when they are put together again
(`LengthStream.feedAll_independent`), and that is laid down by `LengthPrefix.Reads` without any buffer.

Between two pieces the stream keeps what is left of the bytes so far, and no complete frame is ever left.
`LengthPrefix.Cuts` says what a buffer comes apart into; bytes that arrive later go behind what is left
(`LengthPrefix.Cuts.reads_append`), and after a refused length it does not matter what arrives
(`LengthPrefix.Cuts.reads_of_error`).
-/

namespace DevicePairing

namespace LengthPrefix

/-- What a listener is told when bytes are read as frames. -/
inductive Reads (limit : Nat) : Bytes → List StreamAct → Prop where
  /-- The length at the end is not whole. -/
  | headless {bs : Bytes} (short : bs.length < lengthSize) : Reads limit bs []
  /-- The message at the end is not whole. -/
  | unfinished {header body : Bytes} (size : header.length = lengthSize)
    (within : ofLittleEndian header ≤ limit) (short : body.length < ofLittleEndian header) :
    Reads limit (header ++ body) []
  /-- A length and as many bytes are a frame; what follows is read on its own. -/
  | frame {header item rest : Bytes} {acts : List StreamAct} (size : header.length = lengthSize)
    (length : ofLittleEndian header = item.length) (within : item.length ≤ limit)
    (more : Reads limit rest acts) :
    Reads limit (header ++ (item ++ rest)) (.ofEnvelope item :: acts)
  /-- A length above the limit is reported; whatever follows is not read. -/
  | refused {header rest : Bytes} (size : header.length = lengthSize)
    (above : limit < ofLittleEndian header) :
    Reads limit (header ++ rest) [.reported (.messageTooLarge (ofLittleEndian header) limit)]

variable {limit : Nat}

/-! ## The front of a buffer -/

/-- As long as the length field is incomplete there is no frame. -/
theorem takeFrame_of_short {bs : Bytes} (short : bs.length < lengthSize) :
    takeFrame limit bs = .ok none := by
  unfold takeFrame
  dsimp only
  rw [if_pos (by rw [List.length_take]; omega)]

/-- With the length field there, its value decides: it is refused, more is to come, or the frame is taken off.
-/
theorem takeFrame_of_header {header : Bytes} (size : header.length = lengthSize) (body : Bytes) :
    takeFrame limit (header ++ body) =
      if limit < ofLittleEndian header then
        .error (.messageTooLarge (ofLittleEndian header) limit)
      else if body.length < ofLittleEndian header then .ok none
      else .ok (some (body.take (ofLittleEndian header), body.drop (ofLittleEndian header))) := by
  have htake : (header ++ body).take lengthSize = header := by rw [← size, List.take_left]
  have hdrop : (header ++ body).drop lengthSize = body := by rw [← size, List.drop_left]
  have hmin : ∀ n, min n body.length < n ↔ body.length < n := by omega
  unfold takeFrame
  simp only [htake, hdrop, size, Nat.lt_irrefl, if_false, List.length_take, hmin]

/-- The length is there or it is not. -/
theorem short_or_header (bs : Bytes) :
    bs.length < lengthSize ∨ ∃ header body, header.length = lengthSize ∧ bs = header ++ body := by
  by_cases h : bs.length < lengthSize
  · exact .inl h
  · refine .inr ⟨bs.take lengthSize, bs.drop lengthSize, ?_, (List.take_append_drop ..).symm⟩
    rw [List.length_take]
    omega

/-- Nothing is taken off the front only while something is missing. -/
theorem reads_of_takeFrame_none {bs : Bytes} (h : takeFrame limit bs = .ok none) :
    Reads limit bs [] := by
  rcases short_or_header bs with short | ⟨header, body, size, rfl⟩
  · exact .headless short
  rw [takeFrame_of_header size] at h
  split at h
  · cases h
  · next within =>
    split at h
    · next short => exact .unfinished size (Nat.not_lt.1 within) short
    · cases h

/-- Once a length was refused, nothing that follows is read. -/
theorem reads_of_takeFrame_error {bs : Bytes} {e : StreamError} (h : takeFrame limit bs = .error e)
    (data : Bytes) : Reads limit (bs ++ data) [.reported e] := by
  rcases short_or_header bs with short | ⟨header, body, size, rfl⟩
  · rw [takeFrame_of_short short] at h
    cases h
  rw [takeFrame_of_header size] at h
  split at h
  · next above =>
    cases h
    rw [List.append_assoc]
    exact .refused size above
  · split at h <;> cases h

/-- A frame that is taken off stood in front, behind its length. -/
theorem eq_append_of_takeFrame {bs item rest : Bytes} (h : takeFrame limit bs = .ok (some (item, rest))) :
    ∃ header, header.length = lengthSize ∧ ofLittleEndian header = item.length ∧
      item.length ≤ limit ∧ bs = header ++ (item ++ rest) := by
  rcases short_or_header bs with short | ⟨header, body, size, rfl⟩
  · rw [takeFrame_of_short short] at h
    cases h
  rw [takeFrame_of_header size] at h
  split at h
  · cases h
  · next within =>
    split at h
    · cases h
    · next long =>
      cases h
      have hlength : (body.take (ofLittleEndian header)).length = ofLittleEndian header := by
        rw [List.length_take]
        omega
      refine ⟨header, size, hlength.symm, ?_, by rw [List.take_append_drop]⟩
      rw [hlength]
      exact Nat.not_lt.1 within

/-! ## A buffer comes apart -/

/-- What a buffer comes apart into: the messages at its front, and what is left or the error at which it
ends. -/
inductive Cuts (limit : Nat) : Bytes → List Bytes → Except StreamError Bytes → Prop where
  /-- There is no complete message. -/
  | left {bs : Bytes} (incomplete : takeFrame limit bs = .ok none) : Cuts limit bs [] (.ok bs)
  /-- A length is refused. -/
  | refused {bs : Bytes} {e : StreamError} (refused : takeFrame limit bs = .error e) :
    Cuts limit bs [] (.error e)
  /-- There is a message in front of all others. -/
  | frame {bs item rest : Bytes} {items : List Bytes} {last : Except StreamError Bytes}
    (first : takeFrame limit bs = .ok (some (item, rest))) (more : Cuts limit rest items last) :
    Cuts limit bs (item :: items) last

/-- Every message takes some bytes, so there is fuel enough for all of them. -/
theorem cuts_cutOnto {fuel : Nat} {bs : Bytes} (enough : bs.length < fuel) (seen : List Bytes) :
    ∃ items last, Cuts limit bs items last ∧
      cutOnto limit fuel seen bs = ⟨seen.reverse ++ items, last⟩ := by
  induction fuel generalizing bs seen with
  | zero => exact absurd enough (Nat.not_lt_zero _)
  | succ fuel ih =>
    rw [cutOnto]
    rcases hfront : takeFrame limit bs with e | _ | ⟨item, rest⟩
    · exact ⟨[], .error e, .refused hfront, by rw [List.append_nil]⟩
    · exact ⟨[], .ok bs, .left hfront, by rw [List.append_nil]⟩
    · obtain ⟨header, size, _, _, hbs⟩ := eq_append_of_takeFrame hfront
      have hshorter : rest.length < fuel := by
        rw [hbs, List.length_append, List.length_append, size, lengthSize] at enough
        omega
      obtain ⟨items, last, hcuts, heq⟩ := ih hshorter (item :: seen)
      refine ⟨item :: items, last, .frame hfront hcuts, ?_⟩
      show cutOnto limit fuel (item :: seen) rest = _
      rw [heq, List.reverse_cons, List.append_assoc, List.singleton_append]

/-- What a buffer is cut into is what it comes apart into. -/
theorem cuts_cut (limit : Nat) (bs : Bytes) : Cuts limit bs (cut limit bs).frames (cut limit bs).rest := by
  obtain ⟨items, last, hcuts, heq⟩ :
      ∃ items last, Cuts limit bs items last ∧
        cutOnto limit (bs.length + 1) [] bs = ⟨[].reverse ++ items, last⟩ :=
    cuts_cutOnto (Nat.lt_succ_self bs.length) []
  unfold cut
  rw [heq]
  exact hcuts

variable {bs : Bytes} {items : List Bytes}

/-- What is left holds no complete message. -/
theorem Cuts.takeFrame_left {rest : Bytes} (h : Cuts limit bs items (.ok rest)) :
    takeFrame limit rest = .ok none := by
  generalize hlast : (.ok rest : Except StreamError Bytes) = last at h
  induction h with
  | left incomplete =>
    cases hlast
    exact incomplete
  | refused _ => cases hlast
  | frame _ _ ih => exact ih hlast

/-- Bytes that come later are read behind what is left. -/
theorem Cuts.reads_append {rest : Bytes} (h : Cuts limit bs items (.ok rest)) {data : Bytes}
    {acts : List StreamAct} (more : Reads limit (rest ++ data) acts) :
    Reads limit (bs ++ data) (items.map .ofEnvelope ++ acts) := by
  generalize hlast : (.ok rest : Except StreamError Bytes) = last at h
  induction h with
  | left _ =>
    cases hlast
    exact more
  | refused _ => cases hlast
  | frame first _ ih =>
    obtain ⟨header, size, hlength, within, rfl⟩ := eq_append_of_takeFrame first
    rw [List.append_assoc, List.append_assoc]
    exact .frame size hlength within (ih hlast)

/-- After a refused length it does not matter what follows. -/
theorem Cuts.reads_of_error {e : StreamError} (h : Cuts limit bs items (.error e)) (data : Bytes) :
    Reads limit (bs ++ data) (items.map .ofEnvelope ++ [.reported e]) := by
  generalize hlast : (.error e : Except StreamError Bytes) = last at h
  induction h with
  | left _ => cases hlast
  | refused refused =>
    cases hlast
    exact reads_of_takeFrame_error refused data
  | frame first _ ih =>
    obtain ⟨header, size, hlength, within, rfl⟩ := eq_append_of_takeFrame first
    rw [List.append_assoc, List.append_assoc]
    exact .frame size hlength within (ih hlast)

/-! ## Bytes read in one way only -/

/-- A frame behind its length is taken off, whatever follows it. -/
theorem takeFrame_frame {header item rest : Bytes} (size : header.length = lengthSize)
    (length : ofLittleEndian header = item.length) (within : item.length ≤ limit) :
    takeFrame limit (header ++ (item ++ rest)) = .ok (some (item, rest)) := by
  rw [takeFrame_of_header size, if_neg (by omega), if_neg (by rw [List.length_append]; omega), length,
    List.take_left, List.drop_left]

/-- How bytes read is settled by what can be taken off their front. -/
theorem Reads.front {acts : List StreamAct} (h : Reads limit bs acts) :
    match takeFrame limit bs with
    | .ok none => acts = []
    | .ok (some (item, rest)) => ∃ acts', acts = .ofEnvelope item :: acts' ∧ Reads limit rest acts'
    | .error e => acts = [.reported e] := by
  cases h with
  | headless short => rw [takeFrame_of_short short]
  | unfinished size within short =>
    rw [takeFrame_of_header size, if_neg (Nat.not_lt.2 within), if_pos short]
  | frame size length within more =>
    rw [takeFrame_frame size length within]
    exact ⟨_, rfl, more⟩
  | refused size above => rw [takeFrame_of_header size, if_pos above]

/-- Bytes are read in one way only. -/
theorem Reads.unique {acts acts' : List StreamAct} (h : Reads limit bs acts)
    (h' : Reads limit bs acts') : acts = acts' := by
  induction h generalizing acts' with
  | headless short =>
    have hfront := h'.front
    rw [takeFrame_of_short short] at hfront
    exact hfront.symm
  | unfinished size within short =>
    have hfront := h'.front
    rw [takeFrame_of_header size, if_neg (Nat.not_lt.2 within), if_pos short] at hfront
    exact hfront.symm
  | frame size length within _ ih =>
    have hfront := h'.front
    rw [takeFrame_frame size length within] at hfront
    obtain ⟨_, rfl, hmore⟩ := hfront
    rw [ih hmore]
  | refused size above =>
    have hfront := h'.front
    rw [takeFrame_of_header size, if_pos above] at hfront
    exact hfront.symm

end LengthPrefix

namespace LengthStream

open LengthPrefix

variable {κ : Type} {s : LengthStream κ}

/-! ## Pieces -/

/-- Takes in pieces one after another. -/
def feedAll : List Bytes → LengthStream κ → List StreamAct × LengthStream κ
  | [], s => ([], s)
  | piece :: pieces, s =>
    let (acts, s) := s.feed piece
    let (acts', s) := feedAll pieces s
    (acts ++ acts', s)

/-- The second piece is taken in where the first one has stopped. -/
theorem feedAll_cons (piece : Bytes) (pieces : List Bytes) (s : LengthStream κ) :
    s.feedAll (piece :: pieces) =
      ((s.feed piece).1 ++ ((s.feed piece).2.feedAll pieces).1,
        ((s.feed piece).2.feedAll pieces).2) := rfl

/-- A piece that ends within a frame leaves the beginning of the frame in the buffer. -/
theorem feed_of_ok {data rest : Bytes} (awake : s.lost = false)
    (h : (cut s.limit (s.buffer ++ data)).rest = .ok rest) :
    s.feed data = ((cut s.limit (s.buffer ++ data)).frames.map .ofEnvelope,
      { s with buffer := rest }) := by
  simp only [feed, awake, Bool.false_eq_true, if_false, h]

/-- A piece with a length that is refused leaves nothing in the buffer, and the stream lost. -/
theorem feed_of_error {data : Bytes} {e : StreamError} (awake : s.lost = false)
    (h : (cut s.limit (s.buffer ++ data)).rest = .error e) :
    s.feed data = ((cut s.limit (s.buffer ++ data)).frames.map .ofEnvelope ++ [.reported e],
      { s with buffer := [], lost := true }) := by
  simp only [feed, awake, Bool.false_eq_true, if_false, h]

/-- A lost stream takes no notice of anything. -/
theorem feedAll_of_lost (lost : s.lost = true) (pieces : List Bytes) :
    s.feedAll pieces = ([], s) := by
  induction pieces with
  | nil => rfl
  | cons piece pieces ih =>
    have hfeed : s.feed piece = ([], s) := by rw [feed, if_pos lost]
    rw [feedAll_cons, hfeed, ih]
    rfl

/-- Whatever the pieces, what the listener is told is how the bytes read behind those that are left from
before. -/
theorem reads_feedAll (awake : s.lost = false) (left : takeFrame s.limit s.buffer = .ok none)
    (pieces : List Bytes) :
    Reads s.limit (s.buffer ++ pieces.flatten) (s.feedAll pieces).1 := by
  induction pieces generalizing s with
  | nil =>
    rw [List.flatten_nil, List.append_nil]
    exact reads_of_takeFrame_none left
  | cons piece pieces ih =>
    have hcuts := cuts_cut s.limit (s.buffer ++ piece)
    rw [List.flatten_cons, ← List.append_assoc, feedAll_cons]
    rcases hrest : (cut s.limit (s.buffer ++ piece)).rest with e | rest
    · rw [hrest] at hcuts
      rw [feed_of_error awake hrest, feedAll_of_lost rfl, List.append_nil]
      exact hcuts.reads_of_error _
    · rw [hrest] at hcuts
      rw [feed_of_ok awake hrest]
      exact hcuts.reads_append (ih (s := { s with buffer := rest }) awake hcuts.takeFrame_left)

/-- A fresh stream reads its pieces as what they are all together. -/
theorem reads_feedAll_fresh (link : κ) (limit : Nat) (pieces : List Bytes) :
    Reads limit pieces.flatten ((fresh link limit).feedAll pieces).1 :=
  reads_feedAll (s := fresh link limit) rfl (takeFrame_of_short (Nat.zero_lt_succ 3)) pieces

/-- However bytes are cut into pieces, a new stream that is fed the pieces tells its listener the same,
and that is what the bytes read as. -/
theorem feedAll_independent (link : κ) (limit : Nat) {pieces pieces' : List Bytes}
    (same : pieces.flatten = pieces'.flatten) :
    ((fresh link limit).feedAll pieces).1 = ((fresh link limit).feedAll pieces').1 ∧
    ∀ acts, Reads limit pieces.flatten acts ↔ ((fresh link limit).feedAll pieces).1 = acts := by
  have hpieces := reads_feedAll_fresh link limit pieces
  have hpieces' := reads_feedAll_fresh link limit pieces'
  rw [← same] at hpieces'
  refine ⟨hpieces.unique hpieces', ?_⟩
  intro acts
  constructor
  · exact hpieces.unique
  · rintro rfl
    exact hpieces

/-! ## A length that arrives in two pieces -/

/-- Twenty bytes of a frame that holds no envelope, then a length above a limit of 200 and more bytes. -/
def garbled : Bytes := [16, 0, 0, 0] ++ List.replicate 16 255 ++ [201, 0, 0, 0] ++ [1, 0, 0, 0, 7]

/-- An envelope in its frame. -/
def enveloped : Bytes :=
  let item := Envelope.encode ⟨none, false, [1, 2]⟩ .client
  littleEndian lengthSize item.length ++ item

/-- Two cuts of the same bytes, one of them within the length field and with an empty piece, tell the listener
the same. -/
theorem feedAll_header_in_pieces :
    [enveloped, garbled].flatten =
      [enveloped.take 3, [], enveloped.drop 3 ++ garbled.take 22, garbled.drop 22].flatten ∧
    ((fresh () 200).feedAll [enveloped, garbled]).1 =
      ((fresh () 200).feedAll
        [enveloped.take 3, [], enveloped.drop 3 ++ garbled.take 22, garbled.drop 22]).1 ∧
    StreamAct.messages ((fresh () 200).feedAll [enveloped, garbled]).1 =
      [(⟨none, false, [1, 2]⟩, .client)] ∧
    StreamAct.errors ((fresh () 200).feedAll [enveloped, garbled]).1 =
      [.malformedRecord, .messageTooLarge 201 200] := by
  have hsame : [enveloped, garbled].flatten =
      [enveloped.take 3, [], enveloped.drop 3 ++ garbled.take 22, garbled.drop 22].flatten := by
    decide +kernel
  exact ⟨hsame, (feedAll_independent () 200 hsame).1, by decide +kernel, by decide +kernel⟩

end LengthStream

end DevicePairing
