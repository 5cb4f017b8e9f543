import AutoHarness.Sse

namespace AutoHarness.Sse

open FallibleRun

theorem isBreak_iff {byte : UInt8} :
    isBreak byte = true ↔ byte = carriageReturn ∨ byte = lineFeed := by
  simp [isBreak]

theorem LineEnd.isBreak_first (ending : LineEnd) : isBreak ending.first = true := by
  cases ending <;> decide

@[simp] theorem joinLines_nil : joinLines [] = [] := rfl

@[simp] theorem joinLines_cons (line : Line) (lines : List Line) :
    joinLines (line :: lines) = line.text ++ (line.ending.bytes ++ joinLines lines) := by
  simp [joinLines, Line.bytes]

@[simp] theorem joinLines_append (xs ys : List Line) :
    joinLines (xs ++ ys) = joinLines xs ++ joinLines ys := by
  simp [joinLines]

namespace SseDecoder

variable {decoder : SseDecoder} {byte : UInt8}

theorem push_append (decoder : SseDecoder) (xs ys : List UInt8) :
    decoder.push (xs ++ ys) = (do
      let (decoder, frames) ← decoder.push xs
      let (decoder, more) ← decoder.push ys
      .ok (decoder, frames ++ more)) := by
  induction xs generalizing decoder with
  | nil =>
    cases h : decoder.push ys with
    | error e => simp [push, h, bind, Except.bind]
    | ok result => simp [push, h, bind, Except.bind]
  | cons x xs ih =>
    simp only [List.cons_append, push]
    cases h : decoder.pushByte x with
    | error e => simp [bind, Except.bind]
    | ok first =>
      obtain ⟨next, frame⟩ := first
      simp only [ok_bind, ih]
      cases h' : next.push xs with
      | error e => simp [bind, Except.bind]
      | ok middle =>
        obtain ⟨after, frames⟩ := middle
        simp only [ok_bind]
        cases h'' : after.push ys with
        | error e => simp [bind, Except.bind]
        | ok final => simp [bind, Except.bind]

/-- A stream arrives byte by byte, however it is cut. -/
theorem pushAll_eq (decoder : SseDecoder) (pieces : List (List UInt8)) :
    decoder.pushAll pieces = decoder.push pieces.flatten := by
  induction pieces generalizing decoder with
  | nil => rfl
  | cons piece pieces ih =>
    rw [List.flatten_cons, push_append, pushAll]
    simp only [ih]

theorem pushByte_text (h : isBreak byte = false) :
    decoder.pushByte byte =
      if decoder.buffer.length = decoder.maxFrameBytes then .error limitError
      else .ok ({ decoder with
        buffer := decoder.buffer ++ [byte]
        lineHasContent := true
        pendingCarriageReturn := false }, none) := by
  have other : (byte == lineFeed) = false := by
    simp only [isBreak, Bool.or_eq_false_iff] at h
    exact h.2
  simp [pushByte, other, h]

theorem pushByte_end (h : isBreak byte = true) (content : decoder.lineHasContent = true)
    (fresh : byte = lineFeed → decoder.pendingCarriageReturn = false) :
    decoder.pushByte byte =
      if decoder.buffer.length = decoder.maxFrameBytes then .error limitError
      else .ok ({ decoder with
        buffer := decoder.buffer ++ [byte]
        lineHasContent := false
        pendingCarriageReturn := byte == carriageReturn }, none) := by
  have apart : (byte == lineFeed && decoder.pendingCarriageReturn) = false := by
    by_cases feed : byte = lineFeed
    · simp [fresh feed]
    · simp [feed]
  simp [pushByte, apart, h, content]

theorem pushByte_blank (h : isBreak byte = true) (content : decoder.lineHasContent = false)
    (fresh : byte = lineFeed → decoder.pendingCarriageReturn = false) :
    decoder.pushByte byte =
      if decoder.buffer.length = decoder.maxFrameBytes then .error limitError
      else ({ decoder with
        buffer := []
        lineHasContent := false
        pendingCarriageReturn := byte == carriageReturn }).decodeFrame
          (decoder.buffer ++ [byte]) := by
  have apart : (byte == lineFeed && decoder.pendingCarriageReturn) = false := by
    by_cases feed : byte = lineFeed
    · simp [fresh feed]
    · simp [feed]
  simp [pushByte, apart, h, content]

theorem pushByte_second (pending : decoder.pendingCarriageReturn = true) :
    decoder.pushByte lineFeed =
      if decoder.buffer = [] then .ok ({ decoder with pendingCarriageReturn := false }, none)
      else if decoder.buffer.length = decoder.maxFrameBytes then .error limitError
      else .ok ({ decoder with
        buffer := decoder.buffer ++ [lineFeed]
        pendingCarriageReturn := false }, none) := by
  simp [pushByte, pending]

end SseDecoder

section Lines

theorem readLine_nil (fields : FrameFields) : fields.readLine [] = fields := by
  simp [FrameFields.readLine]

def Plain (text : Text) : Prop := ∀ byte ∈ text, isBreak byte = false

/-- Breaks put only empty lines between the lines, and those say nothing. -/
theorem foldl_splitOnP_joinLines (fields : FrameFields) {lines : List Line}
    (plain : ∀ line ∈ lines, Plain line.text) {final : UInt8} (h : isBreak final = true) :
    ((joinLines lines ++ [final]).splitOnP isBreak).foldl FrameFields.readLine fields =
      (lines.map Line.text).foldl FrameFields.readLine fields := by
  induction lines generalizing fields with
  | nil =>
    have pieces : ([] ++ final :: []).splitOnP isBreak = [] :: [].splitOnP isBreak :=
      List.splitOnP_append_cons_of_forall_mem (by simp) final h []
    rw [joinLines_nil, pieces]
    simp [readLine_nil]
  | cons line lines ih =>
    obtain ⟨text, ending⟩ := line
    have clear : ∀ x ∈ text, isBreak x = false := plain ⟨text, ending⟩ (by simp)
    have later := ih (fields.readLine text) fun other member => plain other (by simp [member])
    have single : ∀ (mark : UInt8), isBreak mark = true → ∀ bytes : List UInt8,
        (text ++ mark :: bytes).splitOnP isBreak = text :: bytes.splitOnP isBreak := fun mark hm bytes =>
      List.splitOnP_append_cons_of_forall_mem clear mark hm bytes
    have second : ∀ bytes : List UInt8,
        ([] ++ lineFeed :: bytes).splitOnP isBreak = [] :: bytes.splitOnP isBreak := fun bytes =>
      List.splitOnP_append_cons_of_forall_mem (by simp) lineFeed (by decide) bytes
    cases ending with
    | cr | lf =>
      simp only [joinLines_cons, LineEnd.bytes, List.cons_append, List.nil_append,
        List.append_assoc, List.map_cons, List.foldl_cons]
      rw [single _ (by decide), List.foldl_cons]
      exact later
    | crlf =>
      simp only [joinLines_cons, LineEnd.bytes, List.cons_append, List.nil_append,
        List.append_assoc, List.map_cons, List.foldl_cons]
      rw [single _ (by decide), List.foldl_cons, ← List.nil_append (lineFeed :: _), second,
        List.foldl_cons, readLine_nil]
      exact later

theorem frameOfLines_splitOnP {lines : List Line} (plain : ∀ line ∈ lines, Plain line.text)
    {final : UInt8} (h : isBreak final = true) :
    frameOfLines ((joinLines lines ++ [final]).splitOnP isBreak) =
      frameOfLines (lines.map Line.text) := by
  unfold frameOfLines
  rw [foldl_splitOnP_joinLines _ plain h]

theorem frameOfLines_cons_nil (lines : List Text) :
    frameOfLines ([] :: lines) = frameOfLines lines := by
  simp [frameOfLines, readLine_nil]

theorem readLines_cr (text : Text) {rest : List UInt8} (h : rest.head? ≠ some lineFeed) :
    readLines text (carriageReturn :: rest) =
      consFirst ⟨text, .cr⟩ (readLines [] rest) := by
  cases rest with
  | nil => simp [readLines, consFirst]
  | cons next later =>
    have other : next ≠ lineFeed := fun e => h (by simp [e])
    rw [readLines]
    simp [other]

theorem readLines_crlf (text : Text) (rest : List UInt8) :
    readLines text (carriageReturn :: lineFeed :: rest) =
      consFirst ⟨text, .crlf⟩ (readLines [] rest) := by
  simp [readLines]

theorem readLines_lf (text : Text) (rest : List UInt8) :
    readLines text (lineFeed :: rest) =
      consFirst ⟨text, .lf⟩ (readLines [] rest) := by
  have other : lineFeed ≠ carriageReturn := by decide
  cases rest with
  | nil => simp [readLines, other]
  | cons next later => simp [readLines, other]

theorem readLines_text (text : Text) {byte : UInt8} (rest : List UInt8)
    (h : isBreak byte = false) : readLines text (byte :: rest) = readLines (text ++ [byte]) rest := by
  simp only [isBreak, Bool.or_eq_false_iff, beq_eq_false_iff_ne] at h
  cases rest with
  | nil => simp [readLines, h.1, h.2]
  | cons next later => rw [readLines, if_neg h.1, if_neg h.2]

theorem readLines_ending (text : Text) {ending : LineEnd} {rest : List UInt8}
    (h : ending = .cr → rest.head? ≠ some lineFeed) :
    readLines text (ending.bytes ++ rest) =
      consFirst ⟨text, ending⟩ (readLines [] rest) := by
  cases ending with
  | cr => exact readLines_cr text (h rfl)
  | lf => exact readLines_lf text rest
  | crlf => exact readLines_crlf text rest

/-- A stream is over, goes on with a line end, or goes on with a byte of the line. -/
theorem stream_induction {P : Text → List UInt8 → Prop} (done : ∀ text, P text [])
    (ended : ∀ text ending rest, (ending = LineEnd.cr → rest.head? ≠ some lineFeed) →
      P [] rest → P text (ending.bytes ++ rest))
    (byte : ∀ text byte rest, isBreak byte = false → P (text ++ [byte]) rest →
      P text (byte :: rest)) (text : Text) (rest : List UInt8) : P text rest := by
  induction text, rest using readLines.induct with
  | case1 text => exact done text
  | case2 text => exact ended text .cr [] (by simp) (done [])
  | case3 text rest ih => exact ended text .crlf rest (by simp) ih
  | case4 text next rest other ih => exact ended text .cr (next :: rest) (by simpa using other) ih
  | case5 text rest other ih => exact ended text .lf rest (by simp) ih
  | case6 text b rest other other' ih =>
    exact byte text b rest (by simp [isBreak, other, other']) ih

theorem readBlocks_blank (pending : List Line) (ending : LineEnd) (rest : List Line) :
    readBlocks pending (⟨[], ending⟩ :: rest) =
      consFirst ⟨pending, ending⟩ (readBlocks [] rest) := by
  simp [readBlocks]

theorem readBlocks_text (pending : List Line) {line : Line} (rest : List Line)
    (h : line.text ≠ []) :
    readBlocks pending (line :: rest) = readBlocks (pending ++ [line]) rest := by
  simp [readBlocks, h]

theorem readLines_bytes (text : Text) (rest : List UInt8) :
    joinLines (readLines text rest).1 ++ (readLines text rest).2 = text ++ rest := by
  induction text, rest using stream_induction with
  | done text => simp [readLines]
  | ended text ending rest clear ih =>
    rw [readLines_ending text clear]
    simp only [consFirst, joinLines_cons, List.append_assoc]
    rw [ih, List.nil_append]
  | byte text byte rest plain ih =>
    rw [readLines_text text rest plain, ih]
    simp

theorem readLines_plain {text : Text} (rest : List UInt8) (plain : Plain text) :
    ∀ line ∈ (readLines text rest).1, Plain line.text := by
  induction text, rest using stream_induction with
  | done text => simp [readLines]
  | ended text ending rest clear ih =>
    rw [readLines_ending text clear]
    intro line member
    rcases List.mem_cons.mp member with rfl | later
    · exact plain
    · exact ih (by simp [Plain]) line later
  | byte text byte rest other ih =>
    rw [readLines_text text rest other]
    apply ih
    intro b member
    rcases List.mem_append.mp member with earlier | last
    · exact plain b earlier
    · rw [List.mem_singleton.mp last]
      exact other

/-- What stands before the first line becomes part of it. -/
def addFront (front : Text) : List Line × Text → List Line × Text
  | ([], last) => ([], front ++ last)
  | (line :: lines, last) => (⟨front ++ line.text, line.ending⟩ :: lines, last)

theorem readLines_append (front text : Text) (rest : List UInt8) :
    readLines (front ++ text) rest = addFront front (readLines text rest) := by
  induction text, rest using stream_induction with
  | done text => simp [readLines, addFront]
  | ended text ending rest clear ih =>
    rw [readLines_ending _ clear, readLines_ending _ clear]
    simp [consFirst, addFront]
  | byte text byte rest plain ih =>
    rw [readLines_text _ rest plain, readLines_text _ rest plain, List.append_assoc, ih]

def addLines (front : List Line) : List Block × List Line → List Block × List Line
  | ([], last) => ([], front ++ last)
  | (block :: blocks, last) => (⟨front ++ block.lines, block.blank⟩ :: blocks, last)

theorem readBlocks_append (front pending : List Line) (lines : List Line) :
    readBlocks (front ++ pending) lines = addLines front (readBlocks pending lines) := by
  induction lines generalizing pending with
  | nil => simp [readBlocks, addLines]
  | cons line lines ih =>
    obtain ⟨text, ending⟩ := line
    by_cases blank : text = []
    · subst blank
      rw [readBlocks_blank, readBlocks_blank]
      simp [consFirst, addLines]
    · rw [readBlocks_text _ _ blank, readBlocks_text _ _ blank, List.append_assoc, ih]

theorem readBlocks_none {pending lines : List Line} (h : (readBlocks pending lines).1 = []) :
    (readBlocks pending lines).2 = pending ++ lines := by
  induction lines generalizing pending with
  | nil => simp [readBlocks]
  | cons line lines ih =>
    obtain ⟨text, ending⟩ := line
    by_cases blank : text = []
    · subst blank
      rw [readBlocks_blank] at h
      simp [consFirst] at h
    · rw [readBlocks_text _ _ blank] at h ⊢
      rw [ih h, List.append_assoc, List.singleton_append]

theorem readBlocks_lines {pending lines : List Line} {P : Line → Prop}
    (hp : ∀ line ∈ pending, P line) (hl : ∀ line ∈ lines, P line) :
    ∀ block ∈ (readBlocks pending lines).1, ∀ line ∈ block.lines, P line := by
  induction lines generalizing pending with
  | nil => simp [readBlocks]
  | cons line lines ih =>
    obtain ⟨text, ending⟩ := line
    have later : ∀ other ∈ lines, P other := fun other member => hl other (by simp [member])
    by_cases blank : text = []
    · subst blank
      rw [readBlocks_blank]
      intro block member
      rcases List.mem_cons.mp member with rfl | behind
      · exact hp
      · exact ih (by simp) later block behind
    · rw [readBlocks_text _ _ blank]
      apply ih _ later
      intro other member
      rcases List.mem_append.mp member with earlier | last
      · exact hp other earlier
      · rw [List.mem_singleton.mp last]
        exact hl _ (by simp)

theorem LineEnd.bytes_first (ending : LineEnd) : ∃ more, ending.bytes = ending.first :: more := by
  cases ending with
  | cr | lf => exact ⟨[], rfl⟩
  | crlf => exact ⟨[lineFeed], rfl⟩

/-- The bytes of the first block start the lines that it was read from. -/
theorem readBlocks_first {pending lines : List Line} {block : Block} {blocks : List Block}
    (h : (readBlocks pending lines).1 = block :: blocks) :
    ∃ more, joinLines pending ++ joinLines lines = block.bytes ++ more := by
  induction lines generalizing pending with
  | nil => simp [readBlocks] at h
  | cons line lines ih =>
    obtain ⟨text, ending⟩ := line
    by_cases blank : text = []
    · subst blank
      rw [readBlocks_blank] at h
      have first := (List.cons.inj h).1
      obtain ⟨more, split⟩ := ending.bytes_first
      refine ⟨more ++ joinLines lines, ?_⟩
      simp [← first, Block.bytes, split]
    · rw [readBlocks_text _ _ blank] at h
      obtain ⟨more, split⟩ := ih h
      refine ⟨more, ?_⟩
      rw [← split]
      simp

end Lines

end AutoHarness.Sse
