import AutoHarness.TitleWords

namespace AutoHarness

/-- The greedy choice of words behind those already in the title. -/
def titleOf (done : List (List Char)) : List (List Char) → List Char
  | [] => joined done
  | word :: later =>
    if utf8Length (joined (done ++ [word])) ≤ maxSessionTitleBytes then
      titleOf (done ++ [word]) later
    else if done.isEmpty then truncateBytes maxSessionTitleBytes word
    else joined done

section Loop

theorem titleOf_cons_fits {done : List (List Char)} {word : List Char} (later : List (List Char))
    (fits : Fits (done ++ [word])) : titleOf done (word :: later) = titleOf (done ++ [word]) later :=
  if_pos fits

theorem titleOf_cons_over {done : List (List Char)} {word : List Char} (later : List (List Char))
    (h : done ≠ []) (exceeds : ¬ Fits (done ++ [word])) : titleOf done (word :: later) = joined done := by
  unfold Fits at exceeds
  rw [titleOf, if_neg exceeds, if_neg (by simpa using h)]

theorem titleOf_oversized {word : List Char} (later : List (List Char)) (exceeds : ¬ Fits [word]) :
    titleOf [] (word :: later) = truncateBytes maxSessionTitleBytes word := by
  exact if_neg exceeds

theorem utf8Length_concat {done : List (List Char)} (h : done ≠ []) (word : List Char) :
    utf8Length (joined (done ++ [word])) = utf8Length (joined done) + 1 + utf8Length word := by
  have hblank : Char.utf8Size ' ' = 1 := rfl
  rw [joined_append h (by simp), utf8Length_append, utf8Length_cons, joined_singleton, hblank]
  omega

theorem joined_concat_append (done : List (List Char)) (word more : List Char) :
    joined (done ++ [word ++ more]) = joined (done ++ [word]) ++ more := by
  cases done with
  | nil => rw [List.nil_append, List.nil_append, joined_singleton, joined_singleton]
  | cons first rest =>
    rw [joined_append (by simp) (by simp), joined_append (by simp) (by simp), joined_singleton,
      joined_singleton, List.append_assoc]
    rfl

theorem utf8Length_pos {text : List Char} (h : text ≠ []) : 0 < utf8Length text := by
  obtain ⟨c, rest, rfl⟩ := List.exists_cons_of_ne_nil h
  have hc := c.utf8Size_pos
  rw [utf8Length_cons]
  omega

theorem joined_ne_nil {done : List (List Char)} (h : done ≠ []) (words : ∀ word ∈ done, word ≠ []) :
    joined done ≠ [] := by
  obtain ⟨first, rest, rfl⟩ := List.exists_cons_of_ne_nil h
  have hfirst := words first (List.mem_cons_self ..)
  cases rest with
  | nil => rwa [joined_singleton]
  | cons second later =>
    rw [joined, List.intercalate_cons_cons]
    simp [hfirst]

theorem deriveFromCharacters_separated (title : List Char) (needsSeparator : Bool) (wordStart : Nat)
    {c : Char} (line : List Char) (sep : separates c = true) :
    deriveFromCharacters title needsSeparator wordStart (c :: line) =
      deriveFromCharacters title (needsSeparator || !title.isEmpty) wordStart line :=
  if_pos sep

theorem deriveFromCharacters_visible (title : List Char) (needsSeparator : Bool) (wordStart : Nat)
    {c : Char} (line : List Char) (sep : separates c = false) :
    deriveFromCharacters title needsSeparator wordStart (c :: line) =
      if needsSeparator && utf8Length title + 1 + c.utf8Size > maxSessionTitleBytes then
        some ⟨String.ofList title⟩
      else
        let start := if needsSeparator then utf8Length title else wordStart
        let separated := if needsSeparator then title ++ [' '] else title
        if utf8Length separated + c.utf8Size > maxSessionTitleBytes then
          some ⟨String.ofList (if start > 0 then truncateBytes start separated else separated)⟩
        else deriveFromCharacters (separated ++ [c]) false start line :=
  if_neg (ne_true_of_eq_false sep)

variable {done : List (List Char)}

/-- The loop between two words. -/
def Between (line : List Char) : Prop :=
  ∀ done start, done ≠ [] → (∀ word ∈ done, word ≠ []) → Fits done →
    deriveFromCharacters (joined done) true start line =
      some ⟨String.ofList (titleOf done (wordsOf line))⟩

/-- The loop within a word. -/
def Within (line : List Char) : Prop :=
  ∀ done word, word ≠ [] → (∀ word ∈ done, word ≠ []) → Fits (done ++ [word]) →
    deriveFromCharacters (joined (done ++ [word])) false (utf8Length (joined done)) line =
      some ⟨String.ofList (titleOf done (wordsFrom word line))⟩

theorem forall_mem_concat {word : List Char} (words : ∀ word ∈ done, word ≠ []) (h : word ≠ []) :
    ∀ word' ∈ done ++ [word], word' ≠ [] := by
  intro word' mem
  obtain mem | mem := List.mem_append.mp mem
  · exact words word' mem
  · rw [List.mem_singleton.mp mem]
    exact h

theorem between_cons {c : Char} {line : List Char} (between : Between line) (within : Within line) :
    Between (c :: line) := by
  intro done start h words fits
  have hpos := joined_ne_nil h words
  cases sep : separates c with
  | true =>
    rw [deriveFromCharacters_separated _ _ _ line sep, wordsOf_separated line sep]
    exact between done start h words fits
  | false =>
    have hblank : Char.utf8Size ' ' = 1 := rfl
    rw [deriveFromCharacters_visible _ _ _ line sep]
    by_cases exceeds : utf8Length (joined done) + 1 + c.utf8Size > maxSessionTitleBytes
    · obtain ⟨more, later, hwords⟩ := wordsFrom_head line (List.cons_ne_nil c [])
      have hlong : ¬ Fits (done ++ [[c] ++ more]) := by
        unfold Fits
        rw [utf8Length_concat h, utf8Length_append, utf8Length_cons, utf8Length_nil]
        omega
      rw [if_pos (by simpa using exceeds), ← wordsFrom_nil_left, wordsFrom_cons [] line sep,
        List.nil_append, hwords, titleOf_cons_over later h hlong]
    · have hshort : ¬ utf8Length (joined done ++ [' ']) + c.utf8Size > maxSessionTitleBytes := by
        rw [utf8Length_append, utf8Length_cons, hblank, utf8Length_nil]
        omega
      have hnext : joined done ++ [' '] ++ [c] = joined (done ++ [[c]]) := by
        rw [joined_append h (by simp), joined_singleton, List.append_assoc]
        rfl
      have hfits : Fits (done ++ [[c]]) := by
        unfold Fits
        rw [utf8Length_concat h, utf8Length_cons, utf8Length_nil]
        omega
      rw [if_neg (by simpa using exceeds)]
      simp only [if_true]
      rw [if_neg hshort, hnext, ← wordsFrom_nil_left, wordsFrom_cons [] line sep]
      exact within done [c] (by simp) words hfits

/-- The word that the next character makes too long is left out, or cut when it is the first. -/
theorem titleOf_cut {word : List Char} {c : Char} (line : List Char)
    (words : ∀ word ∈ done, word ≠ []) (fits : Fits (done ++ [word]))
    (exceeds : utf8Length (joined (done ++ [word])) + c.utf8Size > maxSessionTitleBytes) :
    titleOf done (wordsFrom (word ++ [c]) line) =
      if utf8Length (joined done) > 0 then
        truncateBytes (utf8Length (joined done)) (joined (done ++ [word]))
      else joined (done ++ [word]) := by
  obtain ⟨more, later, hwords⟩ := wordsFrom_head line (show word ++ [c] ≠ [] by simp)
  have hlong : ¬ Fits (done ++ [word ++ [c] ++ more]) := by
    unfold Fits
    rw [joined_concat_append, joined_concat_append, utf8Length_append, utf8Length_append,
      utf8Length_cons, utf8Length_nil]
    omega
  rw [hwords]
  by_cases first : done = []
  · subst first
    rw [List.nil_append] at fits
    rw [List.nil_append, joined_singleton] at exceeds
    rw [titleOf_oversized later hlong, List.nil_append, joined_singleton, joined_nil,
      utf8Length_nil, if_neg (by simp), List.append_assoc]
    unfold Fits at fits
    rw [joined_singleton] at fits
    exact truncateBytes_cut fits exceeds
  · have hpos := utf8Length_pos (joined_ne_nil first words)
    have hblank : Char.utf8Size ' ' = 1 := rfl
    rw [titleOf_cons_over later first hlong, if_pos hpos, joined_append first (by simp)]
    exact (truncateBytes_cut (Nat.le_refl _) (by omega)).symm

theorem within_cons {c : Char} {line : List Char} (between : Between line) (within : Within line) :
    Within (c :: line) := by
  intro done word h words fits
  have hall := forall_mem_concat words h
  have hpos := joined_ne_nil (by simp) hall
  cases sep : separates c with
  | true =>
    have hsome : (false || !(joined (done ++ [word])).isEmpty) = true := by simpa using hpos
    rw [deriveFromCharacters_separated _ _ _ line sep, hsome, wordsFrom_separated line h sep,
      titleOf_cons_fits _ fits]
    exact between _ _ (by simp) hall fits
  | false =>
    rw [deriveFromCharacters_visible _ _ _ line sep, if_neg (by simp)]
    simp only [Bool.false_eq_true, if_false]
    rw [wordsFrom_cons word line sep]
    by_cases exceeds : utf8Length (joined (done ++ [word])) + c.utf8Size > maxSessionTitleBytes
    · rw [if_pos exceeds, titleOf_cut line words fits exceeds]
    · have hfits : Fits (done ++ [word ++ [c]]) := by
        unfold Fits
        rw [joined_concat_append, utf8Length_append, utf8Length_cons, utf8Length_nil]
        omega
      rw [if_neg exceeds, ← joined_concat_append]
      exact within done (word ++ [c]) (by simp) words hfits

theorem between_within (line : List Char) : Between line ∧ Within line := by
  induction line with
  | nil =>
    constructor
    · intro done start h words fits
      have hpos := joined_ne_nil h words
      exact if_neg (by simpa using hpos)
    · intro done word h words fits
      have hpos := joined_ne_nil (by simp) (forall_mem_concat words h)
      rw [wordsFrom_nil h, titleOf_cons_fits [] fits]
      exact if_neg (by simpa using hpos)
  | cons c line ih => exact ⟨between_cons ih.1 ih.2, within_cons ih.1 ih.2⟩

/-- A line gives a title exactly when it has a word. -/
theorem deriveFromLine_eq (line : List Char) : SessionTitle.deriveFromLine line =
    if wordsOf line = [] then none else some ⟨String.ofList (titleOf [] (wordsOf line))⟩ := by
  unfold SessionTitle.deriveFromLine
  induction line with
  | nil => rfl
  | cons c line ih =>
    cases sep : separates c with
    | true => rwa [deriveFromCharacters_separated _ _ _ line sep, wordsOf_separated line sep]
    | false =>
      have hsmall := c.utf8Size_le_four
      have hshort : ¬ utf8Length [] + c.utf8Size > maxSessionTitleBytes := by
        rw [utf8Length_nil, maxSessionTitleBytes]
        omega
      have hfits : Fits ([] ++ [[c]]) := by
        unfold Fits
        rw [List.nil_append, joined_singleton, utf8Length_cons]
        omega
      obtain ⟨more, later, hwords⟩ := wordsFrom_head line (List.cons_ne_nil c [])
      rw [deriveFromCharacters_visible _ _ _ line sep, if_neg (by simp)]
      simp only [Bool.false_eq_true, if_false]
      rw [if_neg hshort, ← wordsFrom_nil_left, wordsFrom_cons [] line sep, List.nil_append,
        if_neg (by rw [hwords]; simp)]
      exact (between_within line).2 [] [c] (by simp) (by simp) hfits

end Loop

section Greedy

/-- The title takes words as long as they fit. -/
theorem titleOf_greedy {done words : List (List Char)} (fits : Fits done)
    (first : done = [] → ∀ word ∈ words.head?, Fits [word]) :
    ∃ taken left, words = taken ++ left ∧ titleOf done words = joined (done ++ taken) ∧
      Fits (done ++ taken) ∧ ∀ next ∈ left.head?, ¬ Fits (done ++ taken ++ [next]) := by
  induction words generalizing done with
  | nil => exact ⟨[], [], rfl, by rw [List.append_nil]; rfl, by rwa [List.append_nil], by simp⟩
  | cons word later ih =>
    by_cases hword : Fits (done ++ [word])
    · obtain ⟨taken, left, hsplit, htitle, htaken, hnext⟩ := ih hword (by simp)
      refine ⟨word :: taken, left, by rw [hsplit]; rfl, ?_, ?_, ?_⟩
      · rw [titleOf_cons_fits later hword, htitle, List.append_assoc]
        rfl
      · rwa [List.append_assoc] at htaken
      · intro next mem
        have hover := hnext next mem
        rwa [List.append_assoc done] at hover
    · have hdone : done ≠ [] := by
        intro hempty
        subst hempty
        exact hword (first rfl word rfl)
      refine ⟨[], word :: later, rfl, ?_, by rwa [List.append_nil], ?_⟩
      · rw [titleOf_cons_over later hdone hword, List.append_nil]
      · intro next mem
        obtain rfl := Option.some.inj mem
        rwa [List.append_nil]

theorem Fits.front {words later : List (List Char)} (h : Fits (words ++ later)) : Fits words := by
  unfold Fits at h ⊢
  by_cases hwords : words = []
  · rw [hwords, joined_nil, utf8Length_nil]
    exact Nat.zero_le _
  · by_cases hlater : later = []
    · rwa [hlater, List.append_nil] at h
    · rw [joined_append hwords hlater, utf8Length_append] at h
      omega

/-- The title is the longest run of leading words that fits. -/
def LongestRun (words : List (List Char)) (title : List Char) : Prop :=
  ∃ taken, taken <+: words ∧ title = joined taken ∧ Fits taken ∧
    ∀ other, other <+: words → Fits other → other.length ≤ taken.length

theorem titleOf_longest {words : List (List Char)} (first : ∀ word ∈ words.head?, Fits [word]) :
    LongestRun words (titleOf [] words) := by
  have hnone : Fits [] := by
    unfold Fits
    exact Nat.zero_le _
  obtain ⟨taken, left, hsplit, htitle, htaken, hnext⟩ := titleOf_greedy hnone fun _ => first
  rw [List.nil_append] at htitle htaken
  refine ⟨taken, ⟨left, hsplit.symm⟩, htitle, htaken, ?_⟩
  intro other hother hfits
  apply Nat.le_of_not_lt
  intro hlonger
  have hfront : taken <+: other :=
    List.prefix_of_prefix_length_le ⟨left, hsplit.symm⟩ hother (Nat.le_of_lt hlonger)
  obtain ⟨more, rfl⟩ := hfront
  rw [List.length_append] at hlonger
  cases more with
  | nil => simp at hlonger
  | cons next rest =>
    obtain ⟨behind, hbehind⟩ := hother
    rw [hsplit, List.append_assoc] at hbehind
    have hleft := List.append_cancel_left hbehind
    have hhead : next ∈ left.head? := by
      rw [← hleft]
      rfl
    rw [← List.singleton_append, ← List.append_assoc] at hfits
    exact hnext next hhead hfits.front

end Greedy

/-- The first line with visible content. -/
def firstVisible (prompt : PromptText) : Option (List Char) :=
  (linesFrom [] prompt.value.toList).find? fun line => wordsOf line ≠ []

section Prompt

theorem titleOf_all {done words : List (List Char)} (fits : Fits (done ++ words)) :
    titleOf done words = joined (done ++ words) := by
  induction words generalizing done with
  | nil => rw [List.append_nil]; rfl
  | cons word later ih =>
    rw [← List.singleton_append, ← List.append_assoc] at fits ⊢
    rw [List.singleton_append, titleOf_cons_fits later fits.front, ih fits]

theorem linesFrom_single {line text : List Char} (h : line ++ text ≠ []) (plain : '\n' ∉ text) :
    linesFrom line text = [line ++ text] := by
  induction text generalizing line with
  | nil =>
    rw [List.append_nil] at h ⊢
    exact if_neg (by simpa using h)
  | cons c text ih =>
    rw [List.mem_cons, not_or] at plain
    rw [linesFrom, if_neg (Ne.symm plain.1), ih (by simp) plain.2, List.append_assoc]
    rfl

/-- The words a title is made of. -/
structure TitleWords (title : SessionTitle) (words : List (List Char)) : Prop where
  text : title.value = String.ofList (joined words)
  some : words ≠ []
  worded : Worded words
  fits : Fits words

theorem firstVisible_eq (lines : List (List Char)) :
    lines.findSome? SessionTitle.deriveFromLine =
      (lines.find? fun line => wordsOf line ≠ []).map fun line =>
        ⟨String.ofList (titleOf [] (wordsOf line))⟩ := by
  induction lines with
  | nil => rfl
  | cons line later ih =>
    rw [List.findSome?_cons, List.find?_cons, deriveFromLine_eq]
    by_cases h : wordsOf line = []
    · simp only [h, if_true, ih, ne_eq, not_true_eq_false, decide_false]
    · simp only [h, if_false, ne_eq, not_false_eq_true, decide_true, Option.map_some]

theorem titleOf_words {words : List (List Char)} (h : words ≠ []) (worded : Worded words) :
    ∃ taken, TitleWords ⟨String.ofList (titleOf [] words)⟩ taken := by
  obtain ⟨word, later, rfl⟩ := List.exists_cons_of_ne_nil h
  obtain ⟨hword, plain⟩ := worded word (List.mem_cons_self ..)
  by_cases first : Fits [word]
  · have hfirst : ∀ first ∈ (word :: later).head?, Fits [first] := by
      intro first' mem
      rwa [← Option.some.inj mem]
    obtain ⟨taken, hfront, htitle, hfits, longest⟩ := titleOf_longest hfirst
    have hlong := longest [word] ⟨later, rfl⟩ first
    refine ⟨taken, by rw [htitle], ?_, fun word' mem => worded word' (hfront.subset mem), hfits⟩
    intro hempty
    rw [hempty] at hlong
    exact absurd hlong (by simp)
  · have hcut := truncateBytes_prefix maxSessionTitleBytes word
    have hsize := utf8Length_truncateBytes_le maxSessionTitleBytes word
    have hsome : truncateBytes maxSessionTitleBytes word ≠ [] := by
      obtain ⟨c, rest, rfl⟩ := List.exists_cons_of_ne_nil hword
      have hsmall := c.utf8Size_le_four
      rw [truncateBytes, if_pos (by rw [maxSessionTitleBytes]; omega)]
      exact List.cons_ne_nil _ _
    refine ⟨[truncateBytes maxSessionTitleBytes word], ?_, by simp, ?_, ?_⟩
    · rw [titleOf_oversized later first, joined_singleton]
    · intro word' mem
      obtain rfl := List.mem_singleton.mp mem
      exact ⟨hsome, fun c hc => plain c (hcut.subset hc)⟩
    · rwa [Fits, joined_singleton]

/-- Every derived title is made of words. -/
theorem deriveFromPrompt_words (prompt : PromptText) :
    ∃ words, TitleWords (SessionTitle.deriveFromPrompt prompt) words := by
  unfold SessionTitle.deriveFromPrompt
  rw [firstVisible_eq]
  cases found : (linesFrom [] prompt.value.toList).find? fun line => wordsOf line ≠ [] with
  | none =>
    have hall : ∀ word ∈ ["New".toList, "session".toList],
        word ≠ [] ∧ word.all (fun c => decide (separates c = false)) = true := by decide
    refine ⟨["New".toList, "session".toList], rfl, by simp, ?_, by unfold Fits; decide⟩
    exact fun word mem => ⟨(hall word mem).1, forall_mem_of_all (hall word mem).2⟩
  | some line =>
    have visible : wordsOf line ≠ [] := by simpa using List.find?_some found
    exact titleOf_words visible (worded_wordsOf line)

variable {title : SessionTitle} {words : List (List Char)}

theorem joined_first (h : words ≠ []) (worded : Worded words) :
    ∃ c ∈ joined words, separates c = false := by
  obtain ⟨word, later, rfl⟩ := List.exists_cons_of_ne_nil h
  obtain ⟨hword, plain⟩ := worded word (List.mem_cons_self ..)
  obtain ⟨c, rest, rfl⟩ := List.exists_cons_of_ne_nil hword
  have hc := List.mem_cons_self (a := c) (l := rest)
  exact ⟨c, mem_joined_of_mem (List.mem_cons_self ..) hc, plain c hc⟩

theorem TitleWords.visible (made : TitleWords title words) : isBlank title.value = false := by
  obtain ⟨c, mem, plain⟩ := joined_first made.some made.worded
  unfold separates at plain
  rw [Bool.or_eq_false_iff] at plain
  rw [made.text, isBlank, String.toList_ofList, List.all_eq_false]
  exact ⟨c, mem, by rw [plain.1]; exact Bool.false_ne_true⟩

theorem TitleWords.plain (made : TitleWords title words) {c : Char} (h : separates c = true)
    (other : c ≠ ' ') : c ∉ joined words := by
  intro mem
  obtain blank | ⟨word, within, hc⟩ := mem_joined mem
  · exact other blank
  · have hplain := (made.worded word within).2 c hc
    rw [h] at hplain
    cases hplain

theorem TitleWords.accepted (made : TitleWords title words) :
    SessionTitle.new title.value = .ok title := by
  have hsize : title.value.utf8ByteSize ≤ maxSessionTitleBytes := by
    rw [made.text, utf8ByteSize_ofList_eq]
    exact made.fits
  have hcontrol : title.value.toList.any isControl = false := by
    rw [made.text, String.toList_ofList, List.any_eq_false]
    intro c mem
    by_cases blank : c = ' '
    · rw [blank]
      decide
    · intro control
      have hsep : separates c = true := by rw [separates, control, Bool.or_true]
      exact made.plain hsep blank mem
  rw [SessionTitle.new, if_neg (by rw [made.visible]; exact Bool.false_ne_true),
    if_neg (Nat.not_lt.mpr hsize), if_neg (by rw [hcontrol]; exact Bool.false_ne_true)]

/-- A prompt that is a title gives that title. -/
theorem TitleWords.again (made : TitleWords title words) :
    SessionTitle.deriveFromPrompt ⟨title.value, made.visible⟩ = title := by
  have hline : '\n' ∉ joined words := made.plain (by decide) (by decide)
  obtain ⟨c, mem, -⟩ := joined_first made.some made.worded
  have hlines : linesFrom [] title.value.toList = [joined words] := by
    rw [made.text, String.toList_ofList]
    exact linesFrom_single (List.ne_nil_of_mem mem) hline
  unfold SessionTitle.deriveFromPrompt
  rw [firstVisible_eq, hlines, List.find?_cons]
  simp only [wordsOf_joined made.worded, made.some, ne_eq, not_false_eq_true, decide_true,
    Option.map_some, Option.getD_some]
  have hfits : Fits ([] ++ words) := made.fits
  rw [titleOf_all hfits, List.nil_append, ← made.text]

end Prompt

/-- A derived title is accepted, has the words of its line that fit, and is derived again. -/
theorem derived_title (prompt : PromptText) :
    SessionTitle.new (SessionTitle.deriveFromPrompt prompt).value =
      .ok (SessionTitle.deriveFromPrompt prompt) ∧
    (∀ line ∈ firstVisible prompt,
      (∀ first ∈ (wordsOf line).head?, utf8Length first ≤ maxSessionTitleBytes) →
      LongestRun (wordsOf line) (SessionTitle.deriveFromPrompt prompt).value.toList) ∧
    (firstVisible prompt = none →
      (SessionTitle.deriveFromPrompt prompt).value = "New session") ∧
    ∃ again : PromptText, again.value = (SessionTitle.deriveFromPrompt prompt).value ∧
      SessionTitle.deriveFromPrompt again = SessionTitle.deriveFromPrompt prompt := by
  have hderive : SessionTitle.deriveFromPrompt prompt = ((firstVisible prompt).map fun line =>
      ⟨String.ofList (titleOf [] (wordsOf line))⟩).getD ⟨"New session"⟩ := by
    rw [SessionTitle.deriveFromPrompt, firstVisible_eq]
    rfl
  obtain ⟨words, made⟩ := deriveFromPrompt_words prompt
  refine ⟨made.accepted, ?_, ?_, _, rfl, made.again⟩
  · intro line found first
    have hfirst : ∀ word ∈ (wordsOf line).head?, Fits [word] := by
      intro word mem
      unfold Fits
      rw [joined_singleton]
      exact first word mem
    rw [hderive, Option.mem_def.mp found]
    exact String.toList_ofList ▸ titleOf_longest hfirst
  · intro found
    rw [hderive, found]
    rfl

/-- Words of a later line are left out, also when they fit. -/
theorem later_line_left_out : ¬ ∀ prompt : PromptText,
    (∀ first ∈ (wordsOf prompt.value.toList).head?, utf8Length first ≤ maxSessionTitleBytes) →
    LongestRun (wordsOf prompt.value.toList)
      (SessionTitle.deriveFromPrompt prompt).value.toList := by
  intro claimed
  have hwords : wordsOf "a\nb".toList = [['a'], ['b']] := by decide
  have htitle : SessionTitle.deriveFromPrompt ⟨"a\nb", by decide⟩ = ⟨"a"⟩ := by decide
  obtain ⟨taken, -, text, -, longest⟩ := claimed ⟨"a\nb", by decide⟩ (by decide)
  have hboth := longest [['a'], ['b']] (hwords ▸ List.prefix_refl _) (by unfold Fits; decide)
  rw [htitle] at text
  match taken with
  | [] => exact absurd hboth (by decide)
  | [word] => exact absurd hboth (by simp)
  | first :: second :: rest =>
    have hblank : ' ' ∈ joined (first :: second :: rest) := by
      rw [joined, List.intercalate_cons_cons]
      simp
    rw [← text] at hblank
    exact absurd hblank (by decide)

end AutoHarness
