import Codel00p.Lib.Pieces
import Codel00p.Lib.Shell

/-! Remote commands of the SSH backend: quoting, what a shell reads, and the kill markers. -/

namespace Codel00p

/-- A program to run, with its arguments and the directory it runs in. -/
structure CommandSpec where
  program : String
  args : List String
  cwd : String
  deriving DecidableEq, Repr

namespace Ssh

/-- Quote a text for a POSIX shell, with every single quote closed, escaped, and reopened. -/
def shQuote (s : String) : String :=
  "'" ++ String.ofList (s.toList.flatMap fun ch => if ch = '\'' then "'\\''".toList else [ch]) ++ "'"

def pushArgs (command : String) (args : List String) : String :=
  args.foldl (fun command arg => command ++ " " ++ shQuote arg) command

/-- Change into the remote directory and become the program. -/
def buildExecCommand (remoteCwd : String) (spec : CommandSpec) : String :=
  pushArgs ("cd " ++ shQuote remoteCwd ++ " && exec " ++ shQuote spec.program) spec.args

/-- Run a command in a shell of its own under a time limit. -/
def wrapWithTimeout (inner : String) (secs : Nat) : String :=
  "timeout " ++ toString secs ++ " sh -c " ++ shQuote inner

def backgroundScript (spec : CommandSpec) : String := pushArgs ("exec " ++ shQuote spec.program) spec.args

/-- Run the program in a session of its own, with the marker on its command line. -/
def buildBackgroundCommand (remoteCwd : String) (spec : CommandSpec) (marker : String) : String :=
  "cd " ++ shQuote remoteCwd ++ " && exec setsid sh -c " ++ shQuote (backgroundScript spec) ++ " " ++ shQuote marker

def buildKillCommand (marker : String) : String := "pkill -TERM -f " ++ shQuote marker ++ " 2>/dev/null; true"

open Shell

theorem toList_pushArgs (command : String) (args : List String) : (pushArgs command args).toList =
      command.toList ++ args.flatMap fun arg => ' ' :: (shQuote arg).toList := by
  unfold pushArgs
  induction args generalizing command with
  | nil => simp
  | cons arg args ih => simp [ih]

theorem tokens_escaped (front text rest : List Char) :
    tokens (.quoted front) ((text.flatMap fun ch => if ch = '\'' then "'\\''".toList else [ch])
      ++ '\'' :: rest) = tokens (.outside (some (front ++ text, false))) rest := by
  induction text generalizing front with
  | nil => simp [tokens]
  | cons ch text ih =>
    by_cases quote : ch = '\''
    · -- The quoting ends, one escaped quote follows, and it starts again.
      subst quote
      have reopened := ih (front ++ ['\''])
      simp only [List.flatMap_cons, if_pos, List.append_assoc]
      simpa [tokens, textOf] using reopened
    · simpa [tokens, quote] using ih (front ++ [ch])

theorem tokens_shQuote (text : String) (rest : List Char) : tokens (.outside none) ((shQuote text).toList ++ rest) =
      tokens (.outside (some (text.toList, false))) rest := by
  have inside := tokens_escaped [] text.toList rest
  simpa [shQuote, tokens, textOf] using inside

theorem tokens_args (text : List Char) (args : List String) :
    tokens (.outside (some (text, false))) (args.flatMap fun arg => ' ' :: (shQuote arg).toList) =
      some (.word text false :: args.map fun arg => .word arg.toList false) := by
  induction args generalizing text with
  | nil => simp
  | cons arg args ih => simp [tokens_shQuote, ih, ended]

theorem plain_word {word : String} (plain : (!word.toList.isEmpty && word.toList.all isPlain) = true) :
    word.toList ≠ [] ∧ ∀ c ∈ word.toList, isPlain c = true := by
  simpa using plain

theorem plain_words {words : List String}
    (plain : (words.all fun word => !word.toList.isEmpty && word.toList.all isPlain) = true) :
    ∀ word ∈ words, word.toList ≠ [] ∧ ∀ c ∈ word.toList, isPlain c = true :=
  fun word member => plain_word (List.all_eq_true.1 plain word member)

theorem tokens_front (words : List String) (rest : List Char)
    (plain : ∀ word ∈ words, word.toList ≠ [] ∧ ∀ c ∈ word.toList, isPlain c = true) :
    tokens (.outside none) ((words.flatMap fun word => word.toList ++ [' ']) ++ rest) =
      (tokens (.outside none) rest).map (words.map (fun word => .word word.toList true) ++ ·) := by
  induction words with
  | nil => simp
  | cons word words ih =>
    obtain ⟨nonempty, own⟩ := plain word List.mem_cons_self
    simp only [List.flatMap_cons, List.append_assoc, List.cons_append, List.nil_append]
    rw [tokens_word _ _ own nonempty, ih fun other member => plain other (.tail _ member)]
    simp [Function.comp_def]

/-- A text without the one character no command line can carry. -/
def NoNul (text : String) : Prop := '\x00' ∉ text.toList

@[simp] theorem nul_mem_shQuote (text : String) : '\x00' ∈ (shQuote text).toList ↔ '\x00' ∈ text.toList := by
  have piece : ∀ ch : Char,
      '\x00' ∈ (if ch = '\'' then "'\\''".toList else [ch]) ↔ ch = '\x00' := by
    intro ch
    by_cases quote : ch = '\''
    · subst quote
      decide
    · simp [quote, eq_comm]
  simp only [shQuote, String.toList_append, String.toList_ofList, List.mem_append, List.mem_flatMap, piece]
  simp

theorem read_words {line command text : String} (words : List String) {args : List String}
    (shape : line.toList = ((command :: words).flatMap fun word => word.toList ++ [' '])
      ++ ((shQuote text).toList ++ args.flatMap fun arg => ' ' :: (shQuote arg).toList))
    (plain : ∀ word ∈ command :: words, word.toList ≠ [] ∧ ∀ c ∈ word.toList, isPlain c = true)
    (unreserved : command ∉ reserved) (clean : NoNul text) (cleanArgs : ∀ arg ∈ args, NoNul arg) :
    Shell.read line = some [command :: words ++ text :: args] := by
  have noNul : '\x00' ∉ line.toList := by
    have bare : ∀ word ∈ command :: words, '\x00' ∉ word.toList := fun word member nul =>
      absurd ((plain word member).2 _ nul) (by decide)
    rw [shape]
    simp only [List.mem_append, List.mem_flatMap, not_or, not_exists, not_and, nul_mem_shQuote]
    exact ⟨fun word member => ⟨bare word member, by decide⟩, clean,
      fun arg member => by simpa [NoNul] using cleanArgs arg member⟩
  have tokenized := tokens_front (command :: words) ((shQuote text).toList
    ++ args.flatMap fun arg => ' ' :: (shQuote arg).toList) plain
  rw [tokens_shQuote, tokens_args] at tokenized
  -- The first word starts the command and the others are added to it.
  have joined := andList_words [command] (words.map (fun word => (word.toList, true))
    ++ (text :: args).map fun arg => (arg.toList, false)) [] (by simp)
  rw [Shell.read, if_neg noNul, shape, tokenized]
  simpa [andList, unreserved, Function.comp_def] using joined

theorem noNul_of_read {line : String} {commands : List (List String)}
    (read : Shell.read line = some commands) : NoNul line := by
  intro nul
  simp [Shell.read, nul] at read

theorem read_cd {remoteCwd : String} (clean : NoNul remoteCwd) {line : String}
    {commands : List (List String)} (rest : Shell.read line = some commands) :
    Shell.read ("cd " ++ shQuote remoteCwd ++ " && " ++ line) = some (["cd", remoteCwd] :: commands) := by
  have tokenized := tokens_front ["cd"] ((shQuote remoteCwd).toList ++ " && ".toList ++ line.toList)
    (plain_words (by decide))
  rw [List.append_assoc, tokens_shQuote] at tokenized
  unfold Shell.read at rest ⊢
  split at rest
  · cases rest
  next noNul =>
  rw [if_neg (by simpa [noNul, NoNul] using clean)]
  cases read : tokens (.outside none) line.toList with
  | none => simp [read] at rest
  | some tokens =>
    have spelled : ("cd " ++ shQuote remoteCwd ++ " && " ++ line).toList =
        (["cd"].flatMap fun word => word.toList ++ [' '])
          ++ ((shQuote remoteCwd).toList ++ (" && ".toList ++ line.toList)) := by simp
    rw [spelled, tokenized]
    simpa [Shell.tokens, ended, read, andList, reserved] using by simpa [read] using rest

theorem isPlain_toString (value : Nat) : ∀ c ∈ (toString value).toList, isPlain c = true := by
  intro c member
  rw [toList_toString] at member
  have digit := Nat.isDigit_of_mem_toDigits (by omega) (Nat.le_refl 10) member
  simp [isPlain, Char.isAlphanum, digit]

theorem read_backgroundScript {spec : CommandSpec} (program : NoNul spec.program)
    (args : ∀ arg ∈ spec.args, NoNul arg) :
    Shell.read (backgroundScript spec) = some ["exec" :: spec.program :: spec.args] := by
  refine read_words [] ?_ (plain_words (by decide)) (by decide) program args
  simp [backgroundScript, toList_pushArgs]

/--
A remote command is read as the commands it was built for.

Every text in it comes back as one word equal to itself.
The foreground command changes into the directory and becomes the program with its arguments,
also when a shell reads it out of the time limit's own command.
The background command hands its inner shell a script that is read in the same way,
and the marker behind it.
-/
theorem remote_commands_read (remoteCwd marker : String) (spec : CommandSpec) (secs : Nat)
    (cwd : NoNul remoteCwd) (program : NoNul spec.program) (args : ∀ arg ∈ spec.args, NoNul arg)
    (label : NoNul marker) : Shell.read (buildExecCommand remoteCwd spec) =
        some [["cd", remoteCwd], "exec" :: spec.program :: spec.args] ∧
      Shell.read (wrapWithTimeout (buildExecCommand remoteCwd spec) secs) =
        some [["timeout", toString secs, "sh", "-c", buildExecCommand remoteCwd spec]] ∧
      Shell.read (buildBackgroundCommand remoteCwd spec marker) =
        some [["cd", remoteCwd], ["exec", "setsid", "sh", "-c", backgroundScript spec, marker]] ∧
      Shell.read (backgroundScript spec) = some ["exec" :: spec.program :: spec.args] := by
  have script := read_backgroundScript program args
  have inner : buildExecCommand remoteCwd spec =
      "cd " ++ shQuote remoteCwd ++ " && " ++ backgroundScript spec := by
    rw [← String.toList_inj]
    simp [buildExecCommand, backgroundScript, toList_pushArgs]
  have run : Shell.read (buildExecCommand remoteCwd spec) =
      some [["cd", remoteCwd], "exec" :: spec.program :: spec.args] := by
    rw [inner]
    exact read_cd cwd script
  refine ⟨run, ?_, ?_, script⟩
  · refine read_words [toString secs, "sh", "-c"] (by simp [wrapWithTimeout]) ?_ (by decide)
      (noNul_of_read run) (List.forall_mem_nil _)
    intro word member
    simp only [List.mem_cons, List.not_mem_nil, or_false] at member
    rcases member with rfl | rfl | rfl | rfl
    · exact plain_word (by decide)
    · exact ⟨by simp, isPlain_toString secs⟩
    · exact plain_word (by decide)
    · exact plain_word (by decide)
  · have session : Shell.read ("exec setsid sh -c " ++ shQuote (backgroundScript spec) ++ " "
        ++ shQuote marker) = some [["exec", "setsid", "sh", "-c", backgroundScript spec, marker]] :=
      read_words ["setsid", "sh", "-c"] (by simp) (plain_words (by decide)) (by decide) (noNul_of_read script)
        (by simpa using label)
    have spelled : buildBackgroundCommand remoteCwd spec marker = "cd " ++ shQuote remoteCwd
        ++ " && " ++ ("exec setsid sh -c " ++ shQuote (backgroundScript spec) ++ " "
          ++ shQuote marker) := by
      rw [← String.toList_inj]
      simp [buildBackgroundCommand]
    rw [spelled]
    exact read_cd cwd session

/-- A program with a quote in its directory and operators in its argument. -/
theorem remote_commands_read_hostile :
    Shell.read (wrapWithTimeout (buildExecCommand "/it's" ⟨"echo", ["a; b", ""], "/"⟩) 12) =
      some [["timeout", "12", "sh", "-c", buildExecCommand "/it's" ⟨"echo", ["a; b", ""], "/"⟩]] ∧
    Shell.read (buildExecCommand "/it's" ⟨"echo", ["a; b", ""], "/"⟩) =
      some [["cd", "/it's"], ["exec", "echo", "a; b", ""]] := by
  obtain ⟨run, limited, _⟩ := remote_commands_read "/it's" "m" ⟨"echo", ["a; b", ""], "/"⟩ 12
    (by unfold NoNul; decide) (by unfold NoNul; decide) (by unfold NoNul; decide)
    (by unfold NoNul; decide)
  exact ⟨limited, run⟩

def markerStart : String := "CODEL00P_SSH_BG"

/-- The next marker, and the counter behind it, which counts on in 64 bits. -/
def nextMarker (pid seq : Nat) : String × Nat :=
  (markerStart ++ "_" ++ toString pid ++ "_" ++ toString seq, (seq + 1) % 2 ^ 64)

/-- The counter of a client process that has started a number of background processes. -/
def markerSeq (pid : Nat) : Nat → Nat
  | 0 => 0
  | started + 1 => (nextMarker pid (markerSeq pid started)).2

/-- The marker of the background process a client starts after a number of others. -/
def markerOf (pid started : Nat) : String := (nextMarker pid (markerSeq pid started)).1

theorem markerSeq_eq (pid started : Nat) : markerSeq pid started = started % 2 ^ 64 := by
  induction started with
  | zero => rfl
  | succ started ih => rw [markerSeq, ih, nextMarker, Nat.mod_add_mod]

/--
How `pkill -f` matches a command line against a pattern.

The pattern is an extended regular expression,
in which letters, digits, and underscores stand for themselves.
-/
structure Pkill where
  hits : List Char → List Char → Prop
  literal : ∀ pattern line, (∀ c ∈ pattern, c.isAlphanum = true ∨ c = '_') → (hits pattern line ↔ pattern <:+: line)

def killPattern (command : String) : Option (List Char) :=
  match tokens (.outside none) command.toList with
  | some (_ :: _ :: _ :: .word pattern _ :: _) => some pattern
  | _ => none

theorem killPattern_build (marker : String) : killPattern (buildKillCommand marker) = some marker.toList := by
  have front := tokens_front ["pkill", "-TERM", "-f"] ((shQuote marker).toList
    ++ " 2>/dev/null; true".toList) (plain_words (by decide))
  have rest : tokens (.outside (some (marker.toList, false))) " 2>/dev/null; true".toList =
      some [.word marker.toList false, .word ['2'] true, .operator ['>'],
        .word "/dev/null".toList true, .operator [';'], .word "true".toList true] := by
    simp [tokens, ended, isPlain, textOf]
  rw [tokens_shQuote, rest] at front
  have spelled : (buildKillCommand marker).toList =
      (["pkill", "-TERM", "-f"].flatMap fun word => word.toList ++ [' '])
        ++ ((shQuote marker).toList ++ " 2>/dev/null; true".toList) := by
    simp [buildKillCommand]
  rw [killPattern, spelled, front]
  rfl

/-- Whether killing one background process of a client also hits another one by its marker. -/
def Pkill.Crosses (pkill : Pkill) (pid killed other : Nat) : Prop :=
  ∃ pattern, killPattern (buildKillCommand (markerOf pid killed)) = some pattern ∧
    pkill.hits pattern (markerOf pid other).toList

theorem digit_of_mem_toDigits {value : Nat} {c : Char} (member : c ∈ Nat.toDigits 10 value) :
    c.isAlphanum = true ∧ c ≠ 'C' := by
  have digit := Nat.isDigit_of_mem_toDigits (by omega) (Nat.le_refl 10) member
  refine ⟨by simp [Char.isAlphanum, digit], ?_⟩
  rintro rfl
  simp at digit

theorem markers_shape (pid : Nat) : ∃ front : List Char, 'C' ∉ front ∧ (∀ c ∈ front, c.isAlphanum = true ∨ c = '_') ∧
      ∀ seq, (nextMarker pid seq).1.toList = 'C' :: (front ++ Nat.toDigits 10 seq) := by
  obtain ⟨rest, start, apart, letters⟩ : ∃ rest, markerStart.toList = 'C' :: rest ∧ 'C' ∉ rest ∧
      (rest.all fun c => c.isAlphanum || c == '_') = true := ⟨markerStart.toList.tail, by decide +kernel⟩
  have plain : ∀ c ∈ rest, c.isAlphanum = true ∨ c = '_' := by simpa using letters
  have digits : 'C' ∉ Nat.toDigits 10 pid := fun member => (digit_of_mem_toDigits member).2 rfl
  refine ⟨rest ++ '_' :: (Nat.toDigits 10 pid ++ ['_']), by simp [apart, digits], ?_, fun seq => ?_⟩
  · intro c member
    simp only [List.mem_append, List.mem_cons, List.not_mem_nil, or_false] at member
    rcases member with fixed | bar | digit | bar
    · exact plain c fixed
    · exact .inr bar
    · exact .inl (digit_of_mem_toDigits digit).1
    · exact .inr bar
  · simp [nextMarker, start]

theorem marker_within_iff (pid killed other : Nat) :
    (nextMarker pid killed).1.toList <:+: (nextMarker pid other).1.toList ↔
      Nat.toDigits 10 killed <+: Nat.toDigits 10 other := by
  obtain ⟨front, apart, _, shape⟩ := markers_shape pid
  have digits : ∀ value, 'C' ∉ Nat.toDigits 10 value := fun value member => (digit_of_mem_toDigits member).2 rfl
  rw [shape, shape]
  constructor
  · rintro ⟨before, after, whole⟩
    -- A marker has one capital C, its first character, so nothing stands before the other one.
    have counted := congrArg (List.count 'C') whole
    simp [List.count_append, List.count_eq_zero_of_not_mem apart, List.count_eq_zero_of_not_mem (digits _)] at counted
    cases before with
    | nil => exact ⟨after, by simpa using whole⟩
    | cons c before =>
      obtain ⟨rfl, _⟩ : c = 'C' ∧ _ := by simpa using whole
      rw [List.count_cons_self] at counted
      omega
  · rintro ⟨after, whole⟩
    exact ⟨[], after, by simp [← whole]⟩

theorem crosses_iff (pkill : Pkill) (pid killed other : Nat) : pkill.Crosses pid killed other ↔
      Nat.toDigits 10 (killed % 2 ^ 64) <+: Nat.toDigits 10 (other % 2 ^ 64) := by
  obtain ⟨front, _, literal, shape⟩ := markers_shape pid
  have plain : ∀ c ∈ (markerOf pid killed).toList, c.isAlphanum = true ∨ c = '_' := by
    intro c member
    rw [markerOf, shape, List.mem_cons, List.mem_append] at member
    rcases member with rfl | fixed | digit
    · decide
    · exact literal c fixed
    · exact .inl (digit_of_mem_toDigits digit).1
  simp only [Pkill.Crosses, killPattern_build, Option.some.injEq, exists_eq_left']
  rw [pkill.literal _ _ plain, markerOf, markerOf, marker_within_iff, markerSeq_eq, markerSeq_eq]

/--
When killing one background process of a client leaves the others alone.

The kill of one process hits the marker of another exactly when
its number in the counter, written in decimal, is how the other's number starts.
So a set of processes is isolated if and only if no number of it starts another one,
and the processes a client starts first are isolated only up to the tenth.
-/
theorem kill_isolated_iff (pkill : Pkill) (pid : Nat) :
    (∀ started : Set Nat, (∀ killed ∈ started, ∀ other ∈ started, killed ≠ other → ¬pkill.Crosses pid killed other) ↔
      ∀ killed ∈ started, ∀ other ∈ started, killed ≠ other →
        ¬Nat.toDigits 10 (killed % 2 ^ 64) <+: Nat.toDigits 10 (other % 2 ^ 64)) ∧
    ∀ count, (∀ killed < count, ∀ other < count, killed ≠ other → ¬pkill.Crosses pid killed other) ↔ count ≤ 10 := by
  simp only [crosses_iff, implies_true, true_and]
  intro count
  constructor
  · intro isolated
    by_contra more
    exact isolated 1 (by omega) 10 (by omega) (by omega) (by decide)
  · intro few killed small other below apart
    have single : ∀ i < 10, ∀ j < 10, i ≠ j →
        ¬Nat.toDigits 10 (i % 2 ^ 64) <+: Nat.toDigits 10 (j % 2 ^ 64) := by decide +kernel
    exact single killed (by omega) other (by omega) apart

def literalPkill : Pkill := ⟨fun pattern line => pattern <:+: line, fun _ _ _ => Iff.rfl⟩

/-- Killing the second process of a client also hits the eleventh. -/
theorem kill_crosses : literalPkill.Crosses 42 1 10 := (crosses_iff literalPkill 42 1 10).2 (by decide)

end Ssh

end Codel00p
