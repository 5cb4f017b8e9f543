import AutoHarness.SseLines

namespace AutoHarness.Sse

open FallibleRun

/-- The decoder in the middle of a stream: the open lines of its block, the open line, and what
is still to come. -/
structure Holds (decoder : SseDecoder) (pending : List Line) (text : Text)
    (rest : List UInt8) : Prop where
  buffer : decoder.buffer = joinLines pending ++ text
  content : decoder.lineHasContent = !text.isEmpty
  fits : decoder.buffer.length ≤ decoder.maxFrameBytes
  fresh : rest.head? = some lineFeed → decoder.pendingCarriageReturn = false
  lines : ∀ line ∈ pending, Plain line.text

/-- The frames of blocks, the first of which may still have its mark. -/
def blockFrames (blocks : List Block) : List SseFrame :=
  blocks.flatMap fun block => (frameOfLines (block.lines.map Line.text)).toList

def rawFrames (first : Bool) : List Block → List SseFrame
  | [] => []
  | block :: blocks =>
    (frameOfLines ((if first then stripFront byteOrderMark block.bytes
      else block.bytes).splitOnP isBreak)).toList ++ blockFrames blocks

def Sound (maxFrameBytes : Nat) (block : Block) : Prop :=
  block.bytes.length ≤ maxFrameBytes ∧ validUtf8 block.bytes = true

/-- Where fragments that are all accepted leave the decoder. -/
structure Outcome (decoder : SseDecoder) (blocks : List Block) (rest : List UInt8)
    (after : SseDecoder) (frames : List SseFrame) : Prop where
  buffer : after.buffer = rest
  fits : rest.length ≤ decoder.maxFrameBytes
  sound : ∀ block ∈ blocks, Sound decoder.maxFrameBytes block
  frames : frames = rawFrames decoder.firstFrame blocks

section Steps

variable {decoder after : SseDecoder} {pending : List Line} {text : Text} {rest : List UInt8}
  {ending : LineEnd} {frames : List SseFrame}

theorem Holds.clear (h : Holds decoder pending text (ending.bytes ++ rest)) :
    ending.first = lineFeed → decoder.pendingCarriageReturn = false := by
  intro feed
  apply h.fresh
  cases ending with
  | lf => rfl
  | cr | crlf => exact absurd feed (by decide)

theorem push_cons_ok {byte : UInt8} {bytes : List UInt8}
    (h : decoder.push (byte :: bytes) = .ok (after, frames)) :
    ∃ next frame later, decoder.pushByte byte = .ok (next, frame) ∧
      next.push bytes = .ok (after, later) ∧ frames = frame.toList ++ later := by
  obtain ⟨⟨next, frame⟩, moved, h⟩ := bind_eq_ok_iff.mp h
  obtain ⟨⟨final, later⟩, pushed, h⟩ := bind_eq_ok_iff.mp h
  cases h
  exact ⟨next, frame, later, moved, pushed, rfl⟩

/-- The second byte of a line end does not end another line. -/
theorem push_second {bytes : List UInt8} (pendingReturn : decoder.pendingCarriageReturn = true)
    (fits : decoder.buffer.length ≤ decoder.maxFrameBytes)
    (h : decoder.push (lineFeed :: bytes) = .ok (after, frames)) :
    ∃ next : SseDecoder,
      next.buffer = (if decoder.buffer = [] then [] else decoder.buffer ++ [lineFeed]) ∧
      next.buffer.length ≤ decoder.maxFrameBytes ∧ next.maxFrameBytes = decoder.maxFrameBytes ∧
      next.firstFrame = decoder.firstFrame ∧ next.lineHasContent = decoder.lineHasContent ∧
      next.pendingCarriageReturn = false ∧ next.push bytes = .ok (after, frames) := by
  obtain ⟨next, frame, later, moved, pushed, rfl⟩ := push_cons_ok h
  rw [SseDecoder.pushByte_second pendingReturn] at moved
  by_cases empty : decoder.buffer = []
  · rw [if_pos empty] at moved
    cases moved
    refine ⟨_, ?_, ?_, ?_, ?_, ?_, ?_, pushed⟩
    · simp [empty]
    · exact fits
    all_goals rfl
  · rw [if_neg empty] at moved
    by_cases full : decoder.buffer.length = decoder.maxFrameBytes
    · rw [if_pos full] at moved
      cases moved
    · rw [if_neg full] at moved
      cases moved
      refine ⟨_, ?_, ?_, ?_, ?_, ?_, ?_, pushed⟩
      · simp [empty]
      · simp only [List.length_append, List.length_singleton]
        omega
      all_goals rfl

/-- The line end behind a line with content closes the line. -/
theorem push_lineEnd (h : Holds decoder pending text (ending.bytes ++ rest)) (ht : text ≠ [])
    (plain : Plain text) (last : ending = .cr → rest.head? ≠ some lineFeed)
    (hp : decoder.push (ending.bytes ++ rest) = .ok (after, frames)) :
    ∃ next : SseDecoder, Holds next (pending ++ [⟨text, ending⟩]) [] rest ∧
      next.maxFrameBytes = decoder.maxFrameBytes ∧ next.firstFrame = decoder.firstFrame ∧
      next.push rest = .ok (after, frames) := by
  have content : decoder.lineHasContent = true := by
    rw [h.content]
    simpa using ht
  have lines : ∀ line ∈ pending ++ [⟨text, ending⟩], Plain line.text := by
    intro line member
    rcases List.mem_append.mp member with earlier | final
    · exact h.lines line earlier
    · rw [List.mem_singleton.mp final]
      exact plain
  have step := SseDecoder.pushByte_end ending.isBreak_first content h.clear
  obtain ⟨more, split⟩ := ending.bytes_first
  rw [split, List.cons_append] at hp
  obtain ⟨next, frame, later, moved, pushed, rfl⟩ := push_cons_ok hp
  rw [step] at moved
  have fits := h.fits
  by_cases full : decoder.buffer.length = decoder.maxFrameBytes
  · rw [if_pos full] at moved
    cases moved
  · rw [if_neg full] at moved
    cases moved
    have room : (decoder.buffer ++ [ending.first]).length ≤ decoder.maxFrameBytes := by
      simp only [List.length_append, List.length_singleton]
      omega
    cases ending with
    | cr =>
      cases split
      refine ⟨_, ?_, ?_, ?_, pushed⟩
      · refine ⟨?_, rfl, room, fun feed => absurd feed (last rfl), lines⟩
        simp [h.buffer, LineEnd.bytes, LineEnd.first]
      all_goals rfl
    | lf =>
      cases split
      refine ⟨_, ?_, ?_, ?_, pushed⟩
      · refine ⟨?_, rfl, room, fun _ => rfl, lines⟩
        simp [h.buffer, LineEnd.bytes, LineEnd.first]
      all_goals rfl
    | crlf =>
      cases split
      obtain ⟨next, buffer, fits, bound, first, line, fresh, pushed⟩ := push_second rfl room pushed
      refine ⟨next, ⟨?_, line, by rw [bound]; exact fits, fun _ => fresh, lines⟩, bound, first,
        pushed⟩
      rw [buffer]
      simp [h.buffer, LineEnd.bytes, LineEnd.first]

/-- A blank line closes the block. -/
theorem push_blankLine (h : Holds decoder pending [] (ending.bytes ++ rest))
    (last : ending = .cr → rest.head? ≠ some lineFeed)
    (hp : decoder.push (ending.bytes ++ rest) = .ok (after, frames)) :
    ∃ (next : SseDecoder) (later : List SseFrame), Holds next [] [] rest ∧
      next.maxFrameBytes = decoder.maxFrameBytes ∧ next.firstFrame = false ∧
      next.push rest = .ok (after, later) ∧ Sound decoder.maxFrameBytes ⟨pending, ending⟩ ∧
      frames = rawFrames decoder.firstFrame [⟨pending, ending⟩] ++ later := by
  have content : decoder.lineHasContent = false := h.content
  have step := SseDecoder.pushByte_blank ending.isBreak_first content h.clear
  obtain ⟨more, split⟩ := ending.bytes_first
  rw [split, List.cons_append] at hp
  obtain ⟨next, frame, later, moved, pushed, rfl⟩ := push_cons_ok hp
  rw [step] at moved
  have fits := h.fits
  have bytes : decoder.buffer ++ [ending.first] = Block.bytes ⟨pending, ending⟩ := by
    simp [h.buffer, Block.bytes]
  by_cases full : decoder.buffer.length = decoder.maxFrameBytes
  · rw [if_pos full] at moved
    cases moved
  · rw [if_neg full, bytes, SseDecoder.decodeFrame] at moved
    by_cases valid : validUtf8 (Block.bytes ⟨pending, ending⟩) = true
    · simp only [valid, Bool.not_true, Bool.false_eq_true, ↓reduceIte] at moved
      cases moved
      have room : (Block.bytes ⟨pending, ending⟩).length ≤ decoder.maxFrameBytes := by
        rw [← bytes, List.length_append, List.length_singleton]
        omega
      have framed : ∀ tail : List SseFrame,
          (frameOfLines ((if decoder.firstFrame then
            stripFront byteOrderMark (Block.bytes ⟨pending, ending⟩)
            else Block.bytes ⟨pending, ending⟩).splitOnP isBreak)).toList ++ tail =
          rawFrames decoder.firstFrame [⟨pending, ending⟩] ++ tail := by
        simp [rawFrames, blockFrames]
      cases ending with
      | cr =>
        cases split
        refine ⟨_, later, ?_, ?_, ?_, pushed, ⟨room, valid⟩, framed later⟩
        · exact ⟨rfl, rfl, Nat.zero_le _, fun feed => absurd feed (last rfl), by simp⟩
        all_goals rfl
      | lf =>
        cases split
        refine ⟨_, later, ?_, ?_, ?_, pushed, ⟨room, valid⟩, framed later⟩
        · exact ⟨rfl, rfl, Nat.zero_le _, fun _ => rfl, by simp⟩
        all_goals rfl
      | crlf =>
        cases split
        obtain ⟨next, buffer, fits, bound, first, line, fresh, pushed⟩ :=
          push_second rfl (Nat.zero_le _) pushed
        simp only [↓reduceIte] at buffer
        refine ⟨next, later, ⟨buffer, line, by rw [bound]; exact fits, fun _ => fresh, by simp⟩,
          bound, first, pushed, ⟨room, valid⟩, framed later⟩
    · simp [valid] at moved

theorem push_textByte {byte : UInt8} (h : Holds decoder pending text (byte :: rest))
    (plain : isBreak byte = false) (hp : decoder.push (byte :: rest) = .ok (after, frames)) :
    ∃ next : SseDecoder, Holds next pending (text ++ [byte]) rest ∧
      next.maxFrameBytes = decoder.maxFrameBytes ∧ next.firstFrame = decoder.firstFrame ∧
      next.push rest = .ok (after, frames) := by
  obtain ⟨next, frame, later, moved, pushed, rfl⟩ := push_cons_ok hp
  rw [SseDecoder.pushByte_text plain] at moved
  have fits := h.fits
  by_cases full : decoder.buffer.length = decoder.maxFrameBytes
  · rw [if_pos full] at moved
    cases moved
  · rw [if_neg full] at moved
    cases moved
    refine ⟨_, ?_, ?_, ?_, pushed⟩
    · refine ⟨by simp [h.buffer], by simp, ?_, fun _ => rfl, h.lines⟩
      simp only [List.length_append, List.length_singleton]
      omega
    all_goals rfl

theorem rawFrames_false {blocks : List Block}
    (plain : ∀ block ∈ blocks, ∀ line ∈ block.lines, Plain line.text) :
    rawFrames false blocks = blockFrames blocks := by
  cases blocks with
  | nil => rfl
  | cons block blocks =>
    have framed := frameOfLines_splitOnP (plain block (by simp)) block.blank.isBreak_first
    simp only [rawFrames, blockFrames, List.flatMap_cons, Bool.false_eq_true, ↓reduceIte]
    rw [Block.bytes, framed]

theorem rawFrames_cons (first : Bool) (block : Block) (blocks : List Block) :
    rawFrames first (block :: blocks) = rawFrames first [block] ++ blockFrames blocks := by
  simp [rawFrames, blockFrames]

/-- What accepted bytes leave behind is what reading their lines and blocks gives. -/
theorem push_outcome (h : Holds decoder pending text rest) (plain : Plain text)
    (hp : decoder.push rest = .ok (after, frames)) :
    Outcome decoder (readBlocks pending (readLines text rest).1).1
      (joinLines (readBlocks pending (readLines text rest).1).2 ++ (readLines text rest).2)
      after frames := by
  induction text, rest using stream_induction generalizing decoder pending frames with
  | done text =>
    cases hp
    have fits := h.fits
    rw [h.buffer] at fits
    exact ⟨h.buffer, fits, by simp [readLines, readBlocks], rfl⟩
  | ended text ending rest last ih =>
    rw [readLines_ending text last]
    simp only [consFirst]
    by_cases blank : text = []
    · subst blank
      obtain ⟨next, later, holds, bound, first, pushed, sound, rfl⟩ := push_blankLine h last hp
      have reached := ih holds (by simp [Plain]) pushed
      rw [readBlocks_blank]
      refine ⟨reached.buffer, ?_, ?_, ?_⟩
      · rw [← bound]
        exact reached.fits
      · intro block member
        rcases List.mem_cons.mp member with rfl | later
        · exact sound
        · have kept := reached.sound block later
          rw [bound] at kept
          exact kept
      · have clean : ∀ block ∈ (readBlocks [] (readLines [] rest).1).1,
            ∀ line ∈ block.lines, Plain line.text :=
          readBlocks_lines (by simp) (readLines_plain _ (by simp [Plain]))
        have joined := rawFrames_cons decoder.firstFrame ⟨pending, ending⟩
          (readBlocks [] (readLines [] rest).1).1
        simp only [consFirst]
        rw [joined, reached.frames, first, rawFrames_false clean]
    · obtain ⟨next, holds, bound, first, pushed⟩ := push_lineEnd h blank plain last hp
      have reached := ih holds (by simp [Plain]) pushed
      have nonblank : (Line.mk text ending).text ≠ [] := blank
      rw [readBlocks_text _ _ nonblank]
      exact ⟨reached.buffer, bound ▸ reached.fits, bound ▸ reached.sound, first ▸ reached.frames⟩
  | byte text byte rest other ih =>
    obtain ⟨next, holds, bound, first, pushed⟩ := push_textByte h other hp
    have longer : Plain (text ++ [byte]) := by
      intro b member
      rcases List.mem_append.mp member with earlier | last
      · exact plain b earlier
      · rw [List.mem_singleton.mp last]
        exact other
    have reached := ih holds longer pushed
    rw [readLines_text text _ other]
    exact ⟨reached.buffer, bound ▸ reached.fits, bound ▸ reached.sound, first ▸ reached.frames⟩

theorem push_cons_of_ok {byte : UInt8} {bytes : List UInt8} {next : SseDecoder}
    (moved : decoder.pushByte byte = .ok (next, none))
    (later : ∃ final, next.push bytes = .ok (final, [])) :
    ∃ final, decoder.push (byte :: bytes) = .ok (final, []) := by
  obtain ⟨final, pushed⟩ := later
  refine ⟨final, ?_⟩
  simp [SseDecoder.push, moved, pushed, bind, Except.bind]

/-- While no blank line comes, only the bound can refuse a byte. -/
theorem push_open (h : Holds decoder pending text rest) (plain : Plain text)
    (unclosed : (readBlocks pending (readLines text rest).1).1 = [])
    (room : decoder.buffer.length + rest.length ≤ decoder.maxFrameBytes) :
    ∃ final, decoder.push rest = .ok (final, []) := by
  induction text, rest using stream_induction generalizing decoder pending with
  | done text => exact ⟨decoder, rfl⟩
  | ended text ending rest last ih =>
    rw [readLines_ending text last] at unclosed
    simp only [consFirst] at unclosed
    have nonblank : text ≠ [] := by
      rintro rfl
      rw [readBlocks_blank] at unclosed
      simp [consFirst] at unclosed
    have present : (Line.mk text ending).text ≠ [] := nonblank
    rw [readBlocks_text _ _ present] at unclosed
    have content : decoder.lineHasContent = true := by
      rw [h.content]
      simpa using nonblank
    have step := SseDecoder.pushByte_end ending.isBreak_first content h.clear
    have lines : ∀ line ∈ pending ++ [⟨text, ending⟩], Plain line.text := by
      intro line member
      rcases List.mem_append.mp member with earlier | final
      · exact h.lines line earlier
      · rw [List.mem_singleton.mp final]
        exact plain
    cases ending with
    | cr =>
      simp only [LineEnd.bytes, List.cons_append, List.nil_append, List.length_cons] at room ⊢
      rw [if_neg (by omega)] at step
      apply push_cons_of_ok step
      apply ih ⟨?_, rfl, ?_, fun feed => absurd feed (last rfl), lines⟩ (by simp [Plain]) unclosed
      · simp only [List.length_append, List.length_singleton]
        omega
      · simp [h.buffer, LineEnd.bytes, LineEnd.first]
      · simp only [List.length_append, List.length_singleton]
        omega
    | lf =>
      simp only [LineEnd.bytes, List.cons_append, List.nil_append, List.length_cons] at room ⊢
      rw [if_neg (by omega)] at step
      apply push_cons_of_ok step
      apply ih ⟨?_, rfl, ?_, fun _ => rfl, lines⟩ (by simp [Plain]) unclosed
      · simp only [List.length_append, List.length_singleton]
        omega
      · simp [h.buffer, LineEnd.bytes, LineEnd.first]
      · simp only [List.length_append, List.length_singleton]
        omega
    | crlf =>
      simp only [LineEnd.bytes, List.cons_append, List.nil_append, List.length_cons] at room ⊢
      rw [if_neg (by omega)] at step
      apply push_cons_of_ok step
      have second : ({ decoder with
        buffer := decoder.buffer ++ [LineEnd.crlf.first]
        lineHasContent := false
        pendingCarriageReturn := LineEnd.crlf.first == carriageReturn } : SseDecoder).pushByte
          lineFeed = _ := SseDecoder.pushByte_second rfl
      rw [if_neg (by simp), if_neg (by simp; omega)] at second
      apply push_cons_of_ok second
      apply ih ⟨?_, rfl, ?_, fun _ => rfl, lines⟩ (by simp [Plain]) unclosed
      · simp only [List.length_append, List.length_singleton]
        omega
      · simp [h.buffer, LineEnd.bytes, LineEnd.first]
      · simp only [List.length_append, List.length_singleton]
        omega
  | byte text byte rest other ih =>
    rw [readLines_text text _ other] at unclosed
    have step : decoder.pushByte byte = _ := SseDecoder.pushByte_text other
    simp only [List.length_cons] at room
    rw [if_neg (by omega)] at step
    apply push_cons_of_ok step
    have longer : Plain (text ++ [byte]) := by
      intro b member
      rcases List.mem_append.mp member with earlier | last
      · exact plain b earlier
      · rw [List.mem_singleton.mp last]
        exact other
    apply ih ⟨by simp [h.buffer], by simp, ?_, fun _ => rfl, h.lines⟩ longer unclosed
    · simp only [List.length_append, List.length_singleton]
      omega
    · simp only [List.length_append, List.length_singleton]
      omega

end Steps

section Mark

theorem isPrefixOf_iff {front text : Text} :
    front.isPrefixOf text = true ↔ ∃ more, text = front ++ more := by
  rw [List.isPrefixOf_iff_prefix]
  exact ⟨fun ⟨more, h⟩ => ⟨more, h.symm⟩, fun ⟨more, h⟩ => ⟨more, h.symm⟩⟩

theorem stripFront_append (front more : Text) : stripFront front (front ++ more) = more := by
  have found : front.isPrefixOf (front ++ more) = true := isPrefixOf_iff.mpr ⟨more, rfl⟩
  simp [stripFront, found]

theorem stripFront_of_not {front text : Text} (h : ¬ ∃ more, text = front ++ more) :
    stripFront front text = text := by
  have absent : front.isPrefixOf text = false := by
    rw [← isPrefixOf_iff, Bool.not_eq_true] at h
    exact h
  simp [stripFront, absent]

theorem validUtf8_char_append (c : Char) (bytes : List UInt8) :
    validUtf8 (String.utf8EncodeChar c ++ bytes) = validUtf8 bytes := by
  have encoded : (⟨(String.utf8EncodeChar c ++ bytes).toArray⟩ : ByteArray) =
      [c].utf8Encode ++ ⟨bytes.toArray⟩ := by
    apply ByteArray.ext
    simp [List.utf8Encode_singleton]
  rw [Bool.eq_iff_iff]
  unfold validUtf8
  rw [ByteArray.validateUTF8_eq_true_iff, ByteArray.validateUTF8_eq_true_iff, encoded]
  exact ByteArray.isValidUTF8_utf8Encode_singleton_append_iff

theorem validUtf8_mark (bytes : List UInt8) :
    validUtf8 (byteOrderMark ++ bytes) = validUtf8 bytes :=
  validUtf8_char_append (Char.ofNat 0xFEFF) bytes

theorem validUtf8_ending (ending : LineEnd) (bytes : List UInt8) :
    validUtf8 (ending.bytes ++ bytes) = validUtf8 bytes := by
  have feed : validUtf8 (lineFeed :: bytes) = validUtf8 bytes := validUtf8_char_append (Char.ofNat 10) bytes
  cases ending with
  | cr => exact validUtf8_char_append (Char.ofNat 13) bytes
  | lf => exact feed
  | crlf => exact (validUtf8_char_append (Char.ofNat 13) (lineFeed :: bytes)).trans feed

theorem readFrames_sound {maxFrameBytes : Nat} {rest : List UInt8} {blocks : List Block}
    (sound : ∀ block ∈ blocks, Sound maxFrameBytes block) (fits : rest.length ≤ maxFrameBytes) :
    readFrames maxFrameBytes rest blocks =
      (blockFrames blocks,
        if rest.all isAsciiWhitespace then .ok () else .error protocolError) := by
  induction blocks with
  | nil =>
    have small : ¬ rest.length > maxFrameBytes := by omega
    simp only [readFrames, if_neg small, blockFrames, List.flatMap_nil]
    split <;> rfl
  | cons block blocks ih =>
    obtain ⟨size, valid⟩ := sound block (by simp)
    have small : ¬ block.bytes.length > maxFrameBytes := by omega
    have later := ih fun other member => sound other (by simp [member])
    simp [readFrames, if_neg small, valid, later, blockFrames]

theorem finish_eq {decoder : SseDecoder} {rest : List UInt8} (h : decoder.buffer = rest) :
    decoder.finish = if rest.all isAsciiWhitespace then .ok () else .error protocolError := by
  rw [SseDecoder.finish, h]

theorem new_holds (maxFrameBytes : Nat) (stream : List UInt8) :
    Holds (SseDecoder.new maxFrameBytes) [] [] stream :=
  ⟨rfl, rfl, Nat.zero_le _, fun _ => rfl, by simp⟩

variable {maxFrameBytes : Nat} {stream : List UInt8} {after : SseDecoder}
  {frames : List SseFrame}

theorem reference_unmarked (unmarked : ¬ ∃ more, stream = byteOrderMark ++ more)
    (h : Outcome (SseDecoder.new maxFrameBytes) (readBlocks [] (readLines [] stream).1).1
      (joinLines (readBlocks [] (readLines [] stream).1).2 ++ (readLines [] stream).2)
      after frames) : reference maxFrameBytes stream = (frames, after.finish) := by
  have framed : frames = blockFrames (readBlocks [] (readLines [] stream).1).1 := by
    have clean : ∀ block ∈ (readBlocks [] (readLines [] stream).1).1,
        ∀ line ∈ block.lines, Plain line.text :=
      readBlocks_lines (by simp) (readLines_plain _ (by simp [Plain]))
    rw [h.frames, ← rawFrames_false clean]
    cases blocks : (readBlocks [] (readLines [] stream).1).1 with
    | nil => rfl
    | cons block later =>
      have unstripped : stripFront byteOrderMark block.bytes = block.bytes := by
        apply stripFront_of_not
        rintro ⟨more, marked⟩
        obtain ⟨behind, split⟩ := readBlocks_first blocks
        have whole := readLines_bytes [] stream
        simp only [joinLines_nil, List.nil_append] at split whole
        rw [split, marked, List.append_assoc, List.append_assoc] at whole
        exact unmarked ⟨_, whole.symm⟩
      simp [rawFrames, unstripped]
  have read : readFrames maxFrameBytes _ _ = _ := readFrames_sound h.sound h.fits
  rw [reference, stripFront_of_not unmarked]
  simp only
  rw [read, framed, finish_eq h.buffer]

/-- The stream is a mark and white space in which no blank line closes the marked block. -/
def BareMark (stream : List UInt8) : Prop :=
  ∃ rest, stream = byteOrderMark ++ rest ∧ rest.all isAsciiWhitespace = true ∧
    (readBlocks [] (readLines [] stream).1).1 = []

theorem readLines_mark (rest : List UInt8) :
    readLines [] (byteOrderMark ++ rest) = addFront byteOrderMark (readLines [] rest) := by
  have first := readLines_append byteOrderMark [] rest
  rw [List.append_nil] at first
  rw [← first]
  simp only [byteOrderMark, List.cons_append, List.nil_append]
  rw [readLines_text _ _ (by decide), readLines_text _ _ (by decide),
    readLines_text _ _ (by decide)]
  rfl

theorem mark_not_white (rest : List UInt8) :
    (byteOrderMark ++ rest).all isAsciiWhitespace = false := by
  simp [byteOrderMark, isAsciiWhitespace]

theorem LineEnd.white (ending : LineEnd) : ending.bytes.all isAsciiWhitespace = true := by
  cases ending <;> decide

/-- A mark that stands alone in front of the first lines leaves them their frames. -/
theorem frame_marked {line : Line} {lines : List Line} {blank : LineEnd}
    (plain : ∀ other ∈ line :: lines, Plain other.text) :
    rawFrames true [⟨⟨byteOrderMark ++ line.text, line.ending⟩ :: lines, blank⟩] =
      (frameOfLines ((line :: lines).map Line.text)).toList := by
  have bytes : Block.bytes ⟨⟨byteOrderMark ++ line.text, line.ending⟩ :: lines, blank⟩ =
      byteOrderMark ++ (joinLines (line :: lines) ++ [blank.first]) := by
    simp [Block.bytes]
  simp only [rawFrames, ↓reduceIte, bytes, stripFront_append, blockFrames, List.flatMap_nil,
    List.append_nil]
  rw [frameOfLines_splitOnP plain blank.isBreak_first]

theorem sound_blank {ending : LineEnd} (h : 1 ≤ maxFrameBytes) :
    Sound maxFrameBytes ⟨[], ending⟩ := by
  refine ⟨by simpa [Block.bytes] using h, ?_⟩
  cases ending <;> decide

/-- The result of the parser that has dropped the mark of a stream. -/
def markedResult (blocks : List Block) (rest : List UInt8) (result : Except ProviderError Unit) :
    Except ProviderError Unit :=
  if blocks.isEmpty && rest.all isAsciiWhitespace then .ok () else result

theorem marked_open {line : Line} {lines : List Line} {last rest : List UInt8}
    (h : Outcome (SseDecoder.new maxFrameBytes)
      (addLines [⟨byteOrderMark ++ line.text, line.ending⟩] ([], lines)).1
      (joinLines (addLines [⟨byteOrderMark ++ line.text, line.ending⟩] ([], lines)).2 ++ last)
      after frames)
    (whole : joinLines (line :: lines) ++ last = rest) :
    readFrames maxFrameBytes
        (joinLines (if line.text = [] then consFirst ⟨[], line.ending⟩ ([], lines)
          else addLines [line] ([], lines)).2 ++ last)
        (if line.text = [] then consFirst ⟨[], line.ending⟩ ([], lines)
          else addLines [line] ([], lines)).1 =
      (frames, markedResult
        (addLines [⟨byteOrderMark ++ line.text, line.ending⟩] ([], lines)).1 rest
        after.finish) := by
  have bound := h.fits
  have buffer := h.buffer
  have framed := h.frames
  simp only [addLines, List.singleton_append, joinLines_cons, List.append_assoc,
    List.length_append] at bound buffer framed
  have closed : after.finish = .error protocolError := by
    rw [finish_eq buffer, mark_not_white]
    rfl
  have room : 3 ≤ byteOrderMark.length := by decide
  simp only [SseDecoder.new] at bound
  have none : frames = [] := framed
  rw [closed, none, ← whole]
  by_cases blank : line.text = []
  · rw [if_pos blank]
    simp only [consFirst, addLines]
    rw [readFrames_sound (by simpa using sound_blank (by omega))
      (by simp only [List.length_append]; omega)]
    have white := line.ending.white
    simp [blank, blockFrames, frameOfLines, white, markedResult]
  · rw [if_neg blank]
    simp only [addLines, List.singleton_append]
    rw [readFrames_sound (by simp) (by simp only [joinLines_cons, List.length_append]; omega)]
    simp [blockFrames, markedResult]

theorem marked_closed {line : Line} {block : Block} {blocks : List Block} {behind : List Line}
    {last rest : List UInt8}
    (h : Outcome (SseDecoder.new maxFrameBytes)
      (addLines [⟨byteOrderMark ++ line.text, line.ending⟩] (block :: blocks, behind)).1
      (joinLines (addLines [⟨byteOrderMark ++ line.text, line.ending⟩]
        (block :: blocks, behind)).2 ++ last) after frames)
    (plain : ∀ other ∈ [line], Plain other.text)
    (clean : ∀ other ∈ (block :: blocks), ∀ line ∈ other.lines, Plain line.text) :
    readFrames maxFrameBytes
        (joinLines (if line.text = [] then consFirst ⟨[], line.ending⟩ (block :: blocks, behind)
          else addLines [line] (block :: blocks, behind)).2 ++ last)
        (if line.text = [] then consFirst ⟨[], line.ending⟩ (block :: blocks, behind)
          else addLines [line] (block :: blocks, behind)).1 =
      (frames, markedResult (addLines [⟨byteOrderMark ++ line.text, line.ending⟩]
        (block :: blocks, behind)).1 rest after.finish) := by
  have buffer := h.buffer
  have bound := h.fits
  have framed := h.frames
  have sound := h.sound
  simp only [addLines, List.singleton_append, SseDecoder.new] at buffer bound framed sound
  obtain ⟨size, valid⟩ := sound _ List.mem_cons_self
  have bytes : Block.bytes ⟨⟨byteOrderMark ++ line.text, line.ending⟩ :: block.lines, block.blank⟩ =
      byteOrderMark ++ (line.text ++ (line.ending.bytes ++ block.bytes)) := by
    simp [Block.bytes]
  rw [bytes, validUtf8_mark] at valid
  rw [bytes] at size
  simp only [List.length_append] at size
  have room : 3 ≤ byteOrderMark.length := by decide
  have others : ∀ other ∈ blocks, Sound maxFrameBytes other := fun other member =>
    sound other (List.mem_cons_of_mem _ member)
  rw [rawFrames_cons, frame_marked] at framed
  · rw [finish_eq buffer]
    by_cases blank : line.text = []
    · rw [blank, List.nil_append, validUtf8_ending] at valid
      rw [if_pos blank]
      simp only [consFirst, addLines]
      have all : ∀ other ∈ ⟨[], line.ending⟩ :: block :: blocks, Sound maxFrameBytes other := by
        intro other member
        rcases List.mem_cons.mp member with rfl | member
        · exact sound_blank (by omega)
        · rcases List.mem_cons.mp member with rfl | later
          · exact ⟨by omega, valid⟩
          · exact others other later
      rw [readFrames_sound all bound, framed, List.map_cons, blank, frameOfLines_cons_nil]
      simp [blockFrames, frameOfLines, markedResult]
    · rw [if_neg blank]
      simp only [addLines, List.singleton_append]
      have unmarked : Block.bytes ⟨line :: block.lines, block.blank⟩ =
          line.text ++ (line.ending.bytes ++ block.bytes) := by
        simp [Block.bytes]
      have all : ∀ other ∈ ⟨line :: block.lines, block.blank⟩ :: blocks,
          Sound maxFrameBytes other := by
        intro other member
        rcases List.mem_cons.mp member with rfl | later
        · refine ⟨?_, by rw [unmarked]; exact valid⟩
          rw [unmarked]
          simp only [List.length_append]
          omega
        · exact others other later
      rw [readFrames_sound all bound, framed]
      simp [blockFrames, markedResult]
  · intro other member
    rcases List.mem_cons.mp member with rfl | later
    · exact plain _ (by simp)
    · exact clean block (by simp) other later

/-- The marked line and the line without its mark leave the same lines open behind them. -/
theorem reference_marked {rest : List UInt8}
    (h : Outcome (SseDecoder.new maxFrameBytes)
      (readBlocks [] (readLines [] (byteOrderMark ++ rest)).1).1
      (joinLines (readBlocks [] (readLines [] (byteOrderMark ++ rest)).1).2 ++
        (readLines [] (byteOrderMark ++ rest)).2) after frames) :
    reference maxFrameBytes (byteOrderMark ++ rest) =
      (frames, markedResult (readBlocks [] (readLines [] (byteOrderMark ++ rest)).1).1 rest
        after.finish) := by
  have whole := readLines_bytes [] rest
  have plain : ∀ line ∈ (readLines [] rest).1, Plain line.text :=
    readLines_plain rest (by simp [Plain])
  rw [readLines_mark] at h ⊢
  rw [reference, stripFront_append]
  simp only
  generalize readLines [] rest = read at h whole plain ⊢
  obtain ⟨lines, last⟩ := read
  simp only [List.nil_append] at whole plain
  cases lines with
  | nil =>
    simp only [addFront, readBlocks, joinLines_nil, List.nil_append] at h whole ⊢
    have fits : last.length ≤ maxFrameBytes := by
      have bound := h.fits
      simp only [List.length_append] at bound
      exact Nat.le_trans (Nat.le_add_left _ _) bound
    rw [readFrames_sound (by simp) fits, h.frames, finish_eq h.buffer, mark_not_white, whole]
    by_cases white : rest.all isAsciiWhitespace = true
    · simp [white, rawFrames, blockFrames, markedResult]
    · simp [white, rawFrames, blockFrames, markedResult]
  | cons line lines =>
    have marked : (Line.mk (byteOrderMark ++ line.text) line.ending).text ≠ [] := by
      simp [byteOrderMark]
    have grouped := readBlocks_append [⟨byteOrderMark ++ line.text, line.ending⟩] [] lines
    have clean : ∀ block ∈ (readBlocks [] lines).1, ∀ other ∈ block.lines, Plain other.text :=
      readBlocks_lines (by simp) fun other member => plain other (by simp [member])
    simp only [addFront] at h ⊢
    rw [readBlocks_text _ _ marked, List.nil_append] at h ⊢
    rw [List.append_nil] at grouped
    rw [grouped] at h ⊢
    have opened : readBlocks [] (line :: lines) =
        if line.text = [] then consFirst ⟨[], line.ending⟩ (readBlocks [] lines)
        else addLines [line] (readBlocks [] lines) := by
      by_cases blank : line.text = []
      · obtain ⟨text, ending⟩ := line
        simp only at blank
        rw [if_pos blank, blank, readBlocks_blank]
      · have extended := readBlocks_append [line] [] lines
        rw [List.append_nil] at extended
        rw [if_neg blank, readBlocks_text _ _ blank, List.nil_append, extended]
    have joined : ∀ blocks, (readBlocks [] lines).1 = blocks → blocks = [] →
        (readBlocks [] lines).2 = lines := by
      intro blocks same empty
      rw [readBlocks_none (same.trans empty), List.nil_append]
    rw [opened]
    generalize readBlocks [] lines = read at h clean joined ⊢
    obtain ⟨blocks, behind⟩ := read
    cases blocks with
    | nil =>
      have same : behind = lines := joined [] rfl rfl
      subst same
      exact marked_open h whole
    | cons block blocks =>
      exact marked_closed h (fun other member => plain other (by
        rcases List.mem_cons.mp member with rfl | later
        · simp
        · exact absurd later (by simp))) clean

end Mark

section Fragmentation

variable {maxFrameBytes : Nat} {stream : List UInt8} {after : SseDecoder}
  {frames : List SseFrame}

theorem stream_outcome (h : (SseDecoder.new maxFrameBytes).push stream = .ok (after, frames)) :
    Outcome (SseDecoder.new maxFrameBytes) (readBlocks [] (readLines [] stream).1).1
      (joinLines (readBlocks [] (readLines [] stream).1).2 ++ (readLines [] stream).2)
      after frames :=
  push_outcome (new_holds maxFrameBytes stream) (by simp [Plain]) h

/-- An accepted stream gives what the parser of the whole stream gives, unless it is a bare mark. -/
theorem push_reference (h : (SseDecoder.new maxFrameBytes).push stream = .ok (after, frames))
    (known : ¬ BareMark stream) : reference maxFrameBytes stream = (frames, after.finish) := by
  have outcome := stream_outcome h
  by_cases marked : ∃ more, stream = byteOrderMark ++ more
  · obtain ⟨rest, rfl⟩ := marked
    rw [reference_marked outcome]
    have result : ((readBlocks [] (readLines [] (byteOrderMark ++ rest)).1).1.isEmpty &&
        rest.all isAsciiWhitespace) = false := by
      apply Bool.eq_false_iff.mpr
      intro both
      simp only [Bool.and_eq_true, List.isEmpty_iff] at both
      exact known ⟨rest, rfl, both.2, both.1⟩
    rw [markedResult, result]
    rfl
  · exact reference_unmarked marked outcome

theorem bareMark_outcome (h : BareMark stream) (room : stream.length ≤ maxFrameBytes) :
    ∃ after, (SseDecoder.new maxFrameBytes).push stream = .ok (after, []) ∧
      after.finish = .error protocolError ∧ reference maxFrameBytes stream = ([], .ok ()) := by
  obtain ⟨rest, rfl, white, unclosed⟩ := h
  obtain ⟨after, pushed⟩ := push_open (new_holds maxFrameBytes (byteOrderMark ++ rest))
    (by simp [Plain]) unclosed (by simpa [SseDecoder.new] using room)
  have outcome := stream_outcome pushed
  have buffer : after.buffer = byteOrderMark ++ rest := by
    rw [outcome.buffer, readBlocks_none unclosed, List.nil_append, readLines_bytes,
      List.nil_append]
  refine ⟨after, pushed, ?_, ?_⟩
  · rw [finish_eq buffer, mark_not_white]
    rfl
  · rw [reference_marked outcome, markedResult, unclosed, white]
    rfl

theorem decode_eq (pieces : List (List UInt8)) :
    SseDecoder.decode maxFrameBytes pieces = SseDecoder.decode maxFrameBytes [pieces.flatten] := by
  unfold SseDecoder.decode
  rw [SseDecoder.pushAll_eq, SseDecoder.pushAll_eq]
  simp

/-- Frames and result are those of the whole stream however it is cut, except that a mark with
nothing but white space behind it is refused at the end. -/
theorem fragmentation_independent_iff (maxFrameBytes : Nat) (stream : List UInt8) :
    ((∀ (pieces : List (List UInt8)) (after : SseDecoder) (frames : List SseFrame),
        pieces.flatten = stream →
        (SseDecoder.new maxFrameBytes).pushAll pieces = .ok (after, frames) →
        (frames, after.finish) = reference maxFrameBytes stream) ∧
      ∀ (pieces pieces' : List (List UInt8)) (frames : List SseFrame),
        pieces.flatten = stream → pieces'.flatten = stream →
        SseDecoder.decode maxFrameBytes pieces = .ok frames →
        SseDecoder.decode maxFrameBytes pieces' = .ok frames) ↔
      ¬ (BareMark stream ∧ stream.length ≤ maxFrameBytes) := by
  constructor
  · rintro ⟨agrees, -⟩ ⟨bare, room⟩
    obtain ⟨after, pushed, failed, fine⟩ := bareMark_outcome bare room
    have whole : (SseDecoder.new maxFrameBytes).pushAll [stream] = .ok (after, []) := by
      rw [SseDecoder.pushAll_eq]
      simpa using pushed
    have same := agrees [stream] after [] (by simp) whole
    rw [failed, fine] at same
    cases same
  · intro known
    constructor
    · intro pieces after frames cut pushed
      rw [SseDecoder.pushAll_eq, cut] at pushed
      have fits : BareMark stream → stream.length ≤ maxFrameBytes := by
        rintro ⟨rest, rfl, -, unclosed⟩
        have outcome := stream_outcome pushed
        have bound := outcome.fits
        rw [readBlocks_none unclosed, List.nil_append, readLines_bytes, List.nil_append] at bound
        exact bound
      exact (push_reference pushed fun bare => known ⟨bare, fits bare⟩).symm
    · intro pieces pieces' frames cut cut' decoded
      rw [decode_eq, cut] at decoded
      rw [decode_eq, cut']
      exact decoded

/-- The mark alone is refused although the parser of the whole stream sees an empty one. -/
theorem bare_mark_refused :
    ¬ ∀ (maxFrameBytes : Nat) (pieces : List (List UInt8)) (after : SseDecoder)
      (frames : List SseFrame),
      (SseDecoder.new maxFrameBytes).pushAll pieces = .ok (after, frames) →
      (frames, after.finish) = reference maxFrameBytes pieces.flatten := by
  intro agrees
  have pushed : (SseDecoder.new 16).pushAll [byteOrderMark] =
      .ok (⟨byteOrderMark, 16, true, true, false⟩, []) := rfl
  have same : (([] : List SseFrame), (Except.error protocolError : Except ProviderError Unit)) =
      ([], .ok ()) := agrees 16 [byteOrderMark] _ [] pushed
  cases same

end Fragmentation

end AutoHarness.Sse
