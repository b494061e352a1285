import Codel00p.Lib.Text

/-! Schedules of cron jobs: what a spec states, the interval it is parsed to, and when a job is due. -/

namespace Codel00p.Cron

inductive CronError
  | invalidSchedule (spec reason : String)
  | emptyPrompt
  | io (path : String)
  deriving DecidableEq, Repr

structure Schedule where
  intervalSecs : Nat
  deriving DecidableEq, Repr

/-- The next run time, in seconds of 64 bits that stay at their largest value. -/
def Schedule.nextAfter (schedule : Schedule) (nowEpochSecs : Nat) : Nat :=
  min (nowEpochSecs + schedule.intervalSecs) (2 ^ 64 - 1)

inductive TimeUnit
  | second
  | minute
  | hour
  | day
  | week
  deriving DecidableEq, Repr

def TimeUnit.secs : TimeUnit → Nat
  | .second => 1
  | .minute => 60
  | .hour => 3600
  | .day => 86400
  | .week => 604800

def TimeUnit.names : TimeUnit → List String
  | .second => ["s", "sec", "secs", "second", "seconds"]
  | .minute => ["m", "min", "mins", "minute", "minutes"]
  | .hour => ["h", "hr", "hrs", "hour", "hours"]
  | .day => ["d", "day", "days"]
  | .week => ["w", "week", "weeks"]

def unitNamed (name : String) : Option TimeUnit :=
  [.second, .minute, .hour, .day, .week].find? fun unit => unit.names.contains name

def isAsciiAlphabetic (c : Char) : Bool := c.isAlpha

/-- The interval of a spec such as `30m` or `every 1w`. -/
def parseSchedule (spec : String) : Except CronError Schedule :=
  let trimmed := trim spec
  let body := trim (((stripFront trimmed "every ").or (stripFront trimmed "every")).getD trimmed)
  let invalid := fun reason => Except.error (CronError.invalidSchedule spec reason)
  let number := body.toList.takeWhile (!isAsciiAlphabetic ·)
  let unit := body.toList.dropWhile (!isAsciiAlphabetic ·)
  if unit.isEmpty then invalid "expected a number and a unit, e.g. 30m"
  else match parseUsize (trim (String.ofList number)) with
    | none => invalid "expected a leading number, e.g. 30m"
    | some amount =>
      if amount = 0 then invalid "interval must be greater than zero"
      else match unitNamed (trim (String.ofList unit)) with
        | none => invalid ("unknown unit `" ++ trim (String.ofList unit) ++ "`")
        -- The product is one of 64 bits, which wraps around in a release build.
        | some unit => .ok { intervalSecs := amount * unit.secs % 2 ^ 64 }

structure CronJob where
  id : String
  schedule : String
  prompt : String
  enabled : Bool := true
  workspace : Option String := none
  provider : Option String := none
  model : Option String := none
  command : Option (List String) := none
  lastRunEpoch : Option Nat := none
  deriving DecidableEq, Repr

def CronJob.isDue (job : CronJob) (now : Nat) : Bool :=
  job.enabled && match parseSchedule job.schedule with
    | .error _ => false
    | .ok schedule => match job.lastRunEpoch with
      | none => true
      | some last => schedule.nextAfter last ≤ now

/-! What a spec states is read off its text, with no arithmetic of machine words. -/

def Blank (text : List Char) : Prop := ∀ c ∈ text, isWhitespace c = true

/-- A spec is a numeral and the name of a unit, perhaps behind `every`, with blanks around each. -/
def States (spec : String) (amount : Nat) (unit : TimeUnit) : Prop :=
  ∃ lead every gap sign digits between after : List Char, ∃ name ∈ unit.names,
    spec.toList = lead ++ every ++ gap ++ sign ++ digits ++ between ++ name.toList ++ after
      ∧ (Blank lead ∧ Blank gap ∧ Blank between ∧ Blank after)
      ∧ (every = [] ∨ every = "every".toList) ∧ (sign = [] ∨ sign = ['+'])
      ∧ digits ≠ [] ∧ (∀ c ∈ digits, c.isDigit = true) ∧ amount = Nat.ofDigitChars 10 digits 0

theorem Blank.append {front back : List Char} (first : Blank front) (second : Blank back) :
    Blank (front ++ back) := by
  intro c member
  exact (List.mem_append.1 member).elim (first c) (second c)

theorem blank_takeWhile (text : List Char) : Blank (text.takeWhile isWhitespace) :=
  fun _ member => List.mem_takeWhile_imp member

theorem trim_parts (text : String) :
    ∃ front back, Blank front ∧ Blank back ∧ text.toList = front ++ (trim text).toList ++ back := by
  let rest := text.toList.dropWhile isWhitespace
  have back : Blank (rest.reverse.takeWhile isWhitespace).reverse := by
    intro c member
    exact blank_takeWhile _ c (List.mem_reverse.1 member)
  have cut : rest = (rest.reverse.dropWhile isWhitespace).reverse
      ++ (rest.reverse.takeWhile isWhitespace).reverse := by
    rw [← List.reverse_append, List.takeWhile_append_dropWhile, List.reverse_reverse]
  refine ⟨_, _, blank_takeWhile text.toList, back, ?_⟩
  rw [trim, String.toList_ofList, List.append_assoc, ← cut, List.takeWhile_append_dropWhile]

theorem digits_eq_some {digits : List Char} {value : Nat}
    (parsed : (if digits.isEmpty || !digits.all Char.isDigit then none
      else
        let value := digits.foldl (fun value digit => value * 10 + (digit.toNat - '0'.toNat)) 0
        if value ≤ 2 ^ 64 - 1 then some value else none) = some value) :
    digits ≠ [] ∧ (∀ c ∈ digits, c.isDigit = true) ∧ value = Nat.ofDigitChars 10 digits 0 := by
  split at parsed
  · simp at parsed
  · next numeral =>
    simp only [Bool.or_eq_true, List.isEmpty_iff, Bool.not_eq_true', not_or, Bool.not_eq_false,
      List.all_eq_true] at numeral
    refine ⟨numeral.1, numeral.2, ?_⟩
    simp only [Nat.ofDigitChars, Nat.mul_comm 10]
    dsimp only at parsed
    split at parsed
    · exact (Option.some.inj parsed).symm
    · simp at parsed

theorem parseUsize_eq_some {text : String} {value : Nat} (parsed : parseUsize text = some value) :
    ∃ sign digits, text.toList = sign ++ digits ∧ (sign = [] ∨ sign = ['+']) ∧ digits ≠ []
      ∧ (∀ c ∈ digits, c.isDigit = true) ∧ value = Nat.ofDigitChars 10 digits 0 := by
  unfold parseUsize at parsed
  -- A sign, where there is one, is not among the digits.
  split at parsed
  · next digits signed => exact ⟨['+'], digits, signed, .inr rfl, digits_eq_some parsed⟩
  · exact ⟨[], text.toList, rfl, .inl rfl, digits_eq_some parsed⟩

theorem body_parts (trimmed : String) : ∃ every gap, trimmed.toList = every ++ gap
        ++ (((stripFront trimmed "every ").or (stripFront trimmed "every")).getD trimmed).toList
      ∧ (every = [] ∨ every = "every".toList) ∧ Blank gap := by
  cases spaced : stripFront trimmed "every " with
  | some rest =>
    refine ⟨"every".toList, [' '], ?_, .inr rfl, by simp [Blank]; decide⟩
    rw [stripFront_eq_some.1 spaced]
    simp
  | none =>
    cases joined : stripFront trimmed "every" with
    | some rest =>
      refine ⟨"every".toList, [], ?_, .inr rfl, by simp [Blank]⟩
      rw [stripFront_eq_some.1 joined]
      simp
    | none => exact ⟨[], [], rfl, .inl rfl, by simp [Blank]⟩

theorem unitNamed_eq_some {name : String} {unit : TimeUnit} (found : unitNamed name = some unit) :
    name ∈ unit.names := by
  simpa using List.find?_some found

/-- An accepted spec states a positive amount, and the interval is its product as a machine word. -/
theorem parseSchedule_eq_ok {spec : String} {schedule : Schedule} (accepted : parseSchedule spec = .ok schedule) :
    ∃ amount unit, States spec amount unit ∧ 0 < amount ∧ schedule.intervalSecs = amount * unit.secs % 2 ^ 64 := by
  simp only [parseSchedule] at accepted
  generalize taken : trim (((stripFront (trim spec) "every ").or
    (stripFront (trim spec) "every")).getD (trim spec)) = body at accepted
  split at accepted
  · simp at accepted
  split at accepted
  · simp at accepted
  next amount parsed =>
  split at accepted
  · simp at accepted
  next positive =>
  split at accepted
  · simp at accepted
  next unit named =>
  refine ⟨amount, unit, ?_, Nat.pos_of_ne_zero positive, ?_⟩
  · -- The parts of the text come from each cut that the parser makes.
    obtain ⟨lead, end₁, blank₁, blank₂, outer⟩ := trim_parts spec
    obtain ⟨every, gap, worded, word, blank₃⟩ := body_parts (trim spec)
    obtain ⟨gap', end₂, blank₄, blank₅, inner⟩ := trim_parts
      (((stripFront (trim spec) "every ").or (stripFront (trim spec) "every")).getD (trim spec))
    obtain ⟨gap'', between, blank₆, blank₇, number⟩ := trim_parts
      (String.ofList (body.toList.takeWhile (!isAsciiAlphabetic ·)))
    obtain ⟨between', end₃, blank₈, blank₉, tail⟩ := trim_parts
      (String.ofList (body.toList.dropWhile (!isAsciiAlphabetic ·)))
    obtain ⟨sign, digits, numeral, plus, some, all, value⟩ := parseUsize_eq_some parsed
    have whole := @List.takeWhile_append_dropWhile _ (!isAsciiAlphabetic ·) body.toList
    rw [String.toList_ofList] at number tail
    rw [number, numeral, tail] at whole
    have name := unitNamed_eq_some named
    generalize trim (String.ofList (body.toList.dropWhile (!isAsciiAlphabetic ·))) = spelled at whole name
    refine ⟨lead, every, gap ++ (gap' ++ gap''), sign, digits, between ++ between',
      end₃ ++ (end₂ ++ end₁), spelled, name, ?_,
      ⟨blank₁, blank₃.append (blank₄.append blank₆), blank₇.append blank₈,
        blank₉.append (blank₅.append blank₂)⟩, word, plus, some, all, value⟩
    rw [outer, worded, inner, taken, ← whole]
    simp
  · exact (congrArg Schedule.intervalSecs (Except.ok.inj accepted)).symm

theorem TimeUnit.secs_pos (unit : TimeUnit) : 0 < unit.secs := by cases unit <;> decide

/-- The interval is what the spec states exactly when that fits a machine word, and then no job is due
within the interval of its last run, short of the last second of the clock. -/
theorem interval_stated_iff (spec : String) (schedule : Schedule) (accepted : parseSchedule spec = .ok schedule) :
    ∃ amount unit, States spec amount unit ∧ (schedule.intervalSecs = amount * unit.secs ∧ 0 < schedule.intervalSecs
          ↔ amount * unit.secs < 2 ^ 64)
      ∧ (amount * unit.secs < 2 ^ 64 → ∀ job : CronJob, ∀ last now, job.schedule = spec →
          job.lastRunEpoch = some last → now < last + amount * unit.secs → now < 2 ^ 64 - 1 →
          job.isDue now = false) := by
  obtain ⟨amount, unit, states, positive, interval⟩ := parseSchedule_eq_ok accepted
  have product : 0 < amount * unit.secs := Nat.mul_pos positive unit.secs_pos
  refine ⟨amount, unit, states, ⟨?_, ?_⟩, ?_⟩
  · intro exactly
    rw [← exactly.1, interval]
    exact Nat.mod_lt _ (by decide)
  · intro fits
    rw [interval, Nat.mod_eq_of_lt fits]
    exact ⟨rfl, product⟩
  · intro fits job last now same ran early short
    rw [Nat.mod_eq_of_lt fits] at interval
    have later : ¬ schedule.nextAfter last ≤ now := by
      simp only [Schedule.nextAfter, interval]
      omega
    simp [CronJob.isDue, same, accepted, ran, later]

theorem interval_stated_half_hour : ∃ amount unit, States " every 30m" amount unit
    ∧ ((1800 : Nat) = amount * unit.secs ∧ 0 < (1800 : Nat) ↔ amount * unit.secs < 2 ^ 64) := by
  obtain ⟨amount, unit, states, exactly, _⟩ := interval_stated_iff " every 30m" ⟨1800⟩ (by decide +kernel)
  exact ⟨amount, unit, states, exactly⟩

/-- The seconds of this many minutes are a multiple of the word size, so the job is due again at once. -/
theorem interval_wraps_to_zero : parseSchedule "4611686018427387904m" = .ok ⟨0⟩
      ∧ (CronJob.mk "cron-1" "4611686018427387904m" "tidy" true none none none none (some 1000)).isDue
          1000 = true := by
  constructor <;> decide +kernel

end Codel00p.Cron
