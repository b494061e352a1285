import Codel00p.Lib.Chunks
import Codel00p.Provider.Sse

/-! Which chunks of a response body are decoded like the whole of it. -/

namespace Codel00p

open Program (exec exec_bind exec_reads exec_throw exec_pure exec_change)

open Utf8

/-! ### Lines -/

/-- The lines of a text with their newlines; the last one is what is behind the last newline. -/
def textLines : List Char → List (List Char)
  | [] => [[]]
  | c :: rest =>
    if c = '\n' then [c] :: textLines rest
    else match textLines rest with
      | [] => [[c]]
      | line :: lines => (c :: line) :: lines

theorem textLines_eq (text : List Char) : textLines text = (drainLines text).1 ++ [(drainLines text).2] := by
  induction text with
  | nil => rfl
  | cons c rest ih =>
    rw [textLines, drainLines, ih]
    split
    · rfl
    · cases (drainLines rest).1 <;> rfl

theorem textLines_ne_nil (text : List Char) : textLines text ≠ [] := by
  rw [textLines_eq]
  exact List.append_ne_nil_of_right_ne_nil _ (List.cons_ne_nil _ _)

theorem drainLines_append (buffer more : List Char) : drainLines (buffer ++ more) =
      ((drainLines buffer).1 ++ (drainLines ((drainLines buffer).2 ++ more)).1,
        (drainLines ((drainLines buffer).2 ++ more)).2) := by
  induction buffer with
  | nil => rfl
  | cons c rest ih =>
    rw [List.cons_append, drainLines, drainLines, ih]
    split
    · rfl
    · next notNewline =>
      cases (drainLines rest).1 with
      | nil =>
        simp [List.nil_append, List.cons_append, drainLines, if_neg notNewline]
      | cons line lines => rfl

theorem drainLines_left (buffer : List Char) : drainLines (drainLines buffer).2 = ([], (drainLines buffer).2) := by
  induction buffer with
  | nil => rfl
  | cons c rest ih =>
    rw [drainLines]
    split
    · exact ih
    · next notNewline =>
      cases (drainLines rest).1 with
      | nil => simp [drainLines, if_neg notNewline, ih]
      | cons line lines => exact ih

/-! ### A stream is its lines -/

section

variable (consumer : SseConsumer)

theorem forM_takeLine_append (lines more : List (List Char)) : (lines ++ more).forM (takeLine consumer) =
      (lines.forM (takeLine consumer) >>= fun _ => more.forM (takeLine consumer)) :=
  List.forM_append

theorem takeChunks_bind_flushLine (provider : String) {buffer : List Char}
    (left : drainLines buffer = ([], buffer)) (chunks : List (List UInt8)) :
    (takeChunks consumer provider buffer (chunks.map .ok) >>= flushLine consumer) =
      ((drainLines (buffer ++ chunks.flatMap lossy)).1.forM (takeLine consumer) >>= fun _ =>
        flushLine consumer (drainLines (buffer ++ chunks.flatMap lossy)).2) := by
  induction chunks generalizing buffer with
  | nil =>
    rw [List.flatMap_nil, List.append_nil, left]
    rfl
  | cons chunk chunks ih =>
    rw [List.flatMap_cons, ← List.append_assoc, drainLines_append, List.map_cons, takeChunks, bind_assoc,
      forM_takeLine_append, bind_assoc]
    refine bind_congr fun _ => ?_
    exact ih (drainLines_left _)

def runLines (lines : List (List Char)) : Except ProviderError Unit × List String :=
  streamed (exec (lines.forM (takeLine consumer)) [])

theorem streamed_flushLine (line : List Char) (handed : List String) :
    streamed (exec (flushLine consumer line) handed) = streamed (exec ([line].forM (takeLine consumer)) handed) := by
  have single : [line].forM (takeLine consumer) = takeLine consumer line := bind_pure _
  rw [single]
  unfold flushLine takeLine
  cases linePayload line with
  | none => rfl
  | some data =>
    dsimp only
    by_cases done : data = sseDone
    · rw [if_pos done, if_pos done, exec_pure, exec_throw]
      rfl
    · rw [if_neg done, if_neg done]

theorem streamSse_eq {response : SseResponse} (successful : response.success = true) (provider : String)
    (chunks : List (List UInt8)) : streamSse provider { response with chunks := chunks.map .ok } consumer =
      runLines consumer (textLines (chunks.flatMap lossy)) := by
  rw [streamSse, if_pos successful, streamBody, takeChunks_bind_flushLine consumer provider rfl,
    List.nil_append, textLines_eq, runLines, forM_takeLine_append]
  generalize drainLines (chunks.flatMap lossy) = drained
  rw [exec_bind, exec_bind]
  rcases exec (drained.1.forM (takeLine consumer)) [] with ⟨result | _, handed⟩
  · rfl
  · exact streamed_flushLine consumer drained.2 handed

end

/-! ### What is shown of a line -/

inductive LinesShown (ends : List Nat) : Nat → List (List Char) → List (List Char) → Prop where
  | nil {offset : Nat} : LinesShown ends offset [] []
  | cons {offset : Nat} {line shown : List Char} {lines more : List (List Char)}
    (own : Shown ends offset line shown) (rest : LinesShown ends (offset + byteLength line) lines more) :
    LinesShown ends offset (line :: lines) (shown :: more)

variable {ends : List Nat} {offset : Nat} {line shown : List Char} {lines : List (List Char)}

theorem LinesShown.extend {c : Char} (front : List Char) {more : List (List Char)}
    (shows : LinesShown ends (offset + c.utf8Size) (line :: lines) (shown :: more))
    (first : ∀ {rest : List Char} {restShown : List Char},
      Shown ends (offset + c.utf8Size) rest restShown → Shown ends offset (c :: rest) (front ++ restShown)) :
    LinesShown ends offset ((c :: line) :: lines) ((front ++ shown) :: more) := by
  cases shows with
  | cons own rest =>
    have length : offset + byteLength (c :: line) = offset + c.utf8Size + byteLength line := by
      simp only [byteLength, List.map_cons, List.sum_cons]
      omega
    exact .cons (first own) (length ▸ rest)

theorem textLines_replicate (count : Nat) (text line : List Char) (lines : List (List Char))
    (first : textLines text = line :: lines) : textLines (List.replicate count replacement ++ text) =
      (List.replicate count replacement ++ line) :: lines := by
  induction count with
  | zero => exact first
  | succ count ih =>
    rw [List.replicate_succ, List.cons_append, textLines, if_neg (by decide), ih, List.cons_append]

theorem linesShown_textLines {text : List Char} (shows : Shown ends offset text shown) :
    LinesShown ends offset (textLines text) (textLines shown) := by
  induction shows with
  | nil => exact .cons .nil .nil
  | @kept offset c text shown whole rest ih =>
    rw [textLines, textLines]
    split
    · next newline =>
      subst newline
      exact .cons (.kept whole .nil) ih
    · obtain ⟨line, lines, first⟩ := List.exists_cons_of_ne_nil (textLines_ne_nil text)
      obtain ⟨other, others, second⟩ := List.exists_cons_of_ne_nil (textLines_ne_nil shown)
      rw [first, second] at ih ⊢
      exact ih.extend [c] fun later => .kept whole later
  | @broken offset c text shown count cut several rest ih =>
    have notNewline : c ≠ '\n' := by
      rintro rfl
      exact not_cut_of_size (by decide) cut
    obtain ⟨line, lines, first⟩ := List.exists_cons_of_ne_nil (textLines_ne_nil text)
    obtain ⟨other, others, second⟩ := List.exists_cons_of_ne_nil (textLines_ne_nil shown)
    rw [textLines, if_neg notNewline, textLines_replicate count shown other others second, first]
    rw [first, second] at ih
    exact ih.extend _ fun later => .broken cut several later

def isDataLine (line : List Char) : Bool := "data:".toList.isPrefixOf line

theorem isDataLine_shown (shows : Shown ends offset line shown) : isDataLine shown = isDataLine line := by
  have single : ∀ c ∈ "data:".toList, c.utf8Size = 1 := by
    have all : ("data:".toList.all fun c => c.utf8Size == 1) = true := by decide
    exact fun c member => eq_of_beq (List.all_eq_true.1 all c member)
  rw [Bool.eq_iff_iff, isDataLine, isDataLine, List.isPrefixOf_iff_prefix, List.isPrefixOf_iff_prefix]
  exact shows.prefix_iff single

/-! ### Payloads -/

theorem count_dropWhile {drops : Char → Bool} {c : Char} (keeps : drops c = false) (text : List Char) :
    (text.dropWhile drops).count c = text.count c := by
  induction text with
  | nil => rfl
  | cons first rest ih =>
    rw [List.dropWhile_cons]
    split
    · next dropped =>
      have differ : first ≠ c := by
        rintro rfl
        rw [keeps] at dropped
        exact nomatch dropped
      rw [ih, List.count_cons_of_ne differ]
    · rfl

theorem count_trim (text : String) : (trim text).toList.count replacement = text.toList.count replacement := by
  have keeps : isWhitespace replacement = false := by decide
  simp [trim, count_dropWhile keeps]

theorem count_trimEnd (text : String) : (trimEnd text).toList.count replacement = text.toList.count replacement := by
  have keeps : isWhitespace replacement = false := by decide
  simp [trimEnd, count_dropWhile keeps]

theorem trimEnd_append {front : String}
    (stays : front.toList.reverse.dropWhile isWhitespace = front.toList.reverse) (rest : List Char) :
    trimEnd (String.ofList (front.toList ++ rest)) = front ++ trimEnd (String.ofList rest) := by
  rw [trimEnd, trimEnd, String.toList_ofList, String.toList_ofList, List.reverse_append, List.dropWhile_append, stays]
  split
  · next blank =>
    rw [List.isEmpty_iff.1 blank, List.reverse_reverse, String.ofList_toList, List.reverse_nil,
      String.ofList_nil, String.append_empty]
  · rw [List.reverse_append, List.reverse_reverse, String.ofList_append, String.ofList_toList]

theorem linePayload_data (rest : List Char) :
    linePayload ("data:".toList ++ rest) = nonEmptyFilter (trimEnd (String.ofList rest)) := by
  rw [linePayload, trimEnd_append (by decide), parseSseDataLine, stripFront_append, Option.bind_some]

theorem linePayload_eq_none (other : isDataLine line = false) : linePayload line = none := by
  have begins : (trimEnd (String.ofList line)).toList <+: line := by
    rw [trimEnd, String.toList_ofList, String.toList_ofList]
    simpa using List.reverse_prefix.2 (List.dropWhile_suffix isWhitespace (l := line.reverse))
  have notFront : ¬"data:".toList.isPrefixOf (trimEnd (String.ofList line)).toList := by
    intro front
    have whole := (List.isPrefixOf_iff_prefix.1 front).trans begins
    rw [isDataLine, List.isPrefixOf_iff_prefix.2 whole] at other
    exact nomatch other
  rw [linePayload, parseSseDataLine, stripFront, if_neg notFront, Option.bind_none]

def replacements (payload : String) : Nat := payload.toList.count replacement

theorem replacements_linePayload (data : isDataLine line = true) :
    (linePayload line).elim 0 replacements = line.count replacement := by
  obtain ⟨rest, rfl⟩ := List.isPrefixOf_iff_prefix.1 data
  have kept : replacements (trim (trimEnd (String.ofList rest))) = rest.count replacement := by
    rw [replacements, count_trim, count_trimEnd, String.toList_ofList]
  have front : "data:".toList.count replacement = 0 := by decide
  rw [linePayload_data, nonEmptyFilter, List.count_append, front, Nat.zero_add, ← kept]
  split
  · next empty =>
    have nothing : replacements "" = 0 := by decide
    rw [String.isEmpty_iff.1 empty, Option.elim_none, nothing]
  · rw [Option.elim_some]

theorem linePayload_uncut
    (shows : Shown ends offset line shown) (uncut : isDataLine line = true → Uncut ends offset line) :
    linePayload shown = linePayload line := by
  cases data : isDataLine line with
  | true => rw [shows.eq_of_uncut (uncut data)]
  | false => rw [linePayload_eq_none data, linePayload_eq_none ((isDataLine_shown shows).trans data)]

theorem linePayload_cut
    (shows : Shown ends offset line shown) (data : isDataLine line = true) (cut : ¬Uncut ends offset line) :
    ∃ payload, linePayload shown = some payload ∧ payload ≠ sseDone ∧
      (linePayload line).elim 0 replacements < replacements payload := by
  have more := shows.count_lt cut
  have whole := replacements_linePayload ((isDataLine_shown shows).trans data)
  rw [← replacements_linePayload data, ← whole] at more
  cases payload : linePayload shown with
  | none =>
    rw [payload] at more
    exact absurd more (Nat.not_lt_zero _)
  | some text =>
    rw [payload] at more
    refine ⟨text, rfl, ?_, more⟩
    rintro rfl
    have none : replacements sseDone = 0 := by decide
    rw [Option.elim_some, none] at more
    exact absurd more (Nat.not_lt_zero _)

/-! ### Chunks that make a difference -/

/--
No chunk ends inside a character of a line with data, up to the line that ends the stream.

Cuts in other lines and behind the end make no difference.
-/
def UncutUntilDone (ends : List Nat) : Nat → List (List Char) → Prop
  | _, [] => True
  | offset, line :: lines =>
    (isDataLine line = true → Uncut ends offset line) ∧
      (linePayload line ≠ some sseDone → UncutUntilDone ends (offset + byteLength line) lines)

instance decidableUncutUntilDone (ends : List Nat) :
    ∀ offset lines, Decidable (UncutUntilDone ends offset lines)
  | _, [] => isTrue trivial
  | offset, line :: lines =>
    let _ := decidableUncutUntilDone ends (offset + byteLength line) lines
    inferInstanceAs (Decidable ((isDataLine line = true → Uncut ends offset line) ∧
      (linePayload line ≠ some sseDone → UncutUntilDone ends (offset + byteLength line) lines)))

theorem exec_forM_takeLine_cons (consumer : SseConsumer) (line : List Char) (lines : List (List Char))
    (handed : List String) :
    exec ((line :: lines).forM (takeLine consumer)) handed =
      match linePayload line with
      | none => exec (lines.forM (takeLine consumer)) handed
      | some data =>
        if data = sseDone then (.error (.ok ()), handed)
        else match consumer (handed ++ [data]) with
          | .error error => (.error (.error error), handed ++ [data])
          | .ok true => (.error (.ok ()), handed ++ [data])
          | .ok false => exec (lines.forM (takeLine consumer)) (handed ++ [data]) := by
  refine (exec_bind _ _ _).trans ?_
  cases payload : linePayload line with
  | none => simp [takeLine, payload, exec_pure]
  | some data =>
    by_cases done : data = sseDone
    · simp [takeLine, payload, if_pos done, exec_throw]
    · simp only [takeLine, payload, if_neg done, handOn, exec_bind, exec_change, exec_reads, id_eq]
      rcases consumer (handed ++ [data]) with error | (_ | _)
      iterate 3 · simp

theorem exec_forM_takeLine_shown (consumer : SseConsumer)
    {shown : List (List Char)} (shows : LinesShown ends offset lines shown)
    (uncut : UncutUntilDone ends offset lines) (handed : List String) : exec (shown.forM (takeLine consumer)) handed =
      exec (lines.forM (takeLine consumer)) handed := by
  induction shows generalizing handed with
  | nil => rfl
  | @cons offset line shownLine lines more own rest ih =>
    obtain ⟨ownUncut, later⟩ := uncut
    rw [exec_forM_takeLine_cons, exec_forM_takeLine_cons, linePayload_uncut own ownUncut]
    cases payload : linePayload line with
    | none => exact ih (later (by simp [payload])) handed
    | some data =>
      by_cases done : data = sseDone
      · simp [if_pos done]
      · -- The stream goes on, whether or not the consumer does.
        have goesOn := ih (later (by simp [payload, done])) (handed ++ [data])
        simp only [if_neg done, goesOn]

/-- A consumer that never has enough. -/
def insatiable : SseConsumer := fun _ => .ok false

/-- The payloads of the lines up to the one that ends the stream. -/
def payloads : List (List Char) → List String
  | [] => []
  | line :: lines =>
    match linePayload line with
    | none => payloads lines
    | some data => if data = sseDone then [] else data :: payloads lines

theorem exec_forM_takeLine_insatiable (lines : List (List Char)) (handed : List String) :
    (exec (lines.forM (takeLine insatiable)) handed).2 = handed ++ payloads lines := by
  induction lines generalizing handed with
  | nil => exact (List.append_nil handed).symm
  | cons line lines ih =>
    rw [exec_forM_takeLine_cons]
    unfold payloads
    cases linePayload line with
    | none => exact ih handed
    | some data =>
      dsimp only [insatiable]
      by_cases done : data = sseDone
      · rw [if_pos done, if_pos done, List.append_nil]
      · rw [if_neg done, if_neg done, ih, List.append_assoc, List.singleton_append]

/-- How many replacements there are in some payloads. -/
def totalReplacements (handed : List String) : Nat := (handed.map replacements).sum

theorem totalReplacements_payloads_cons (line : List Char) (lines : List (List Char)) :
    totalReplacements (payloads (line :: lines)) = (linePayload line).elim 0 replacements +
        if linePayload line = some sseDone then 0 else totalReplacements (payloads lines) := by
  rw [payloads]
  cases linePayload line with
  | none => simp [totalReplacements]
  | some data =>
    by_cases done : data = sseDone
    · subst done
      simp only [if_true, Option.elim_some]
      decide
    · simp [totalReplacements, done]

theorem totalReplacements_shown {shown : List (List Char)} (shows : LinesShown ends offset lines shown) :
    totalReplacements (payloads lines) ≤ totalReplacements (payloads shown) ∧ (¬UncutUntilDone ends offset lines →
        totalReplacements (payloads lines) < totalReplacements (payloads shown)) := by
  induction shows with
  | nil => exact ⟨Nat.le_refl _, fun cut => absurd trivial cut⟩
  | @cons offset line shownLine lines more own rest ih =>
    obtain ⟨noFewer, moreIfCut⟩ := ih
    rw [totalReplacements_payloads_cons, totalReplacements_payloads_cons, UncutUntilDone]
    by_cases ownCut : isDataLine line = true ∧ ¬Uncut ends offset line
    · -- The line itself has more replacements, and does not end the stream.
      obtain ⟨data, cut⟩ := ownCut
      obtain ⟨payload, shownPayload, notDone, more⟩ := linePayload_cut own data cut
      have continues : linePayload shownLine ≠ some sseDone := by simp [shownPayload, notDone]
      rw [if_neg continues, shownPayload, Option.elim_some]
      split
      · exact ⟨by omega, fun _ => by omega⟩
      · exact ⟨by omega, fun _ => by omega⟩
    · have ownUncut : isDataLine line = true → Uncut ends offset line := by
        intro data
        by_contra cut
        exact ownCut ⟨data, cut⟩
      rw [linePayload_uncut own ownUncut]
      split
      · next done => exact ⟨Nat.le_refl _, fun cut => absurd ⟨ownUncut, fun goesOn => absurd done goesOn⟩ cut⟩
      · refine ⟨by omega, fun cut => ?_⟩
        have laterCut := moreIfCut fun later => cut ⟨ownUncut, fun _ => later⟩
        omega

theorem lossy_toUTF8 (body : String) : lossy body.toUTF8.data.toList = body.toList := by
  rw [toList_toUTF8, lossy_text]

/--
Every consumer is handed the payloads of the whole body exactly when no chunk ends inside a
character of a line with data, up to the line that ends the stream.
-/
theorem stream_chunking_iff (provider : String) (response : SseResponse) (successful : response.success = true)
    (body : String) (chunks : List (List UInt8)) (whole : chunks.flatten = body.toUTF8.data.toList) :
    (∀ consumer : SseConsumer, (streamSse provider { response with chunks := chunks.map .ok } consumer).2 =
        (streamSse provider { response with chunks := [.ok body.toUTF8.data.toList] } consumer).2) ↔
      UncutUntilDone (boundaries 0 chunks) 0 (textLines body.toList) := by
  have shows : Shown (boundaries 0 chunks) 0 body.toList (chunks.flatMap lossy) :=
    shown_flatMap_lossy (whole.trans (toList_toUTF8 body)) fun _ _ => Iff.rfl
  have lines := linesShown_textLines shows
  have once : ∀ consumer, streamSse provider { response with chunks := [.ok body.toUTF8.data.toList] } consumer =
      runLines consumer (textLines body.toList) := by
    intro consumer
    have single := streamSse_eq consumer successful provider [body.toUTF8.data.toList]
    rwa [List.flatMap_singleton, lossy_toUTF8] at single
  have handed : ∀ lines, (runLines insatiable lines).2 = payloads lines := by
    intro lines
    have all := exec_forM_takeLine_insatiable lines []
    rw [runLines]
    generalize exec (lines.forM (takeLine insatiable)) [] = run at all ⊢
    rcases run with ⟨_ | _, _⟩ <;> exact all
  constructor
  · intro same
    by_contra cut
    -- A cut shows in the number of replacements that are handed on.
    have equal := same insatiable
    rw [streamSse_eq insatiable successful, once, handed, handed] at equal
    have more := (totalReplacements_shown lines).2 cut
    rw [equal] at more
    exact absurd more (Nat.lt_irrefl _)
  · intro uncut consumer
    rw [streamSse_eq consumer successful, once, runLines, runLines, exec_forM_takeLine_shown consumer lines uncut []]

/-- An event with an accented letter, cut between its line and the next. -/
theorem accent_between_lines :
    (streamSse "openai" { chunks := ["data: é\n".toUTF8.data.toList, "\n".toUTF8.data.toList].map .ok }
      insatiable).2 =
    (streamSse "openai" { chunks := [.ok "data: é\n\n".toUTF8.data.toList] } insatiable).2 :=
  (stream_chunking_iff "openai" { chunks := [] } rfl "data: é\n\n"
    ["data: é\n".toUTF8.data.toList, "\n".toUTF8.data.toList] (by decide +kernel)).2 (by decide +kernel) insatiable

/-- The same event, cut inside the letter: the consumer is handed two replacements for it. -/
theorem accent_cut : [[100, 97, 116, 97, 58, 32, 195], [169, 10, 10]].flatten = "data: é\n\n".toUTF8.data.toList ∧
    (streamSse "openai" { chunks := [.ok [100, 97, 116, 97, 58, 32, 195], .ok [169, 10, 10]] }
      insatiable).2 = ["\uFFFD\uFFFD"] ∧
    (streamSse "openai" { chunks := [.ok "data: é\n\n".toUTF8.data.toList] } insatiable).2 = ["é"] := by
  decide +kernel

end Codel00p
