import Mathlib.Algebra.Order.BigOperators.Group.List
import Mathlib.Algebra.Order.Ring.Nat
import Codel00p.Harness.Search

/-! Following the pages of a search: every match comes once, unless the scan itself has a ceiling. -/

namespace Codel00p

open Json (object asU64 getStr)
open Paging

/-- The input of a call for the page at an offset. -/
def atOffset (fields : List (String × Json)) (offset : Nat) : Json :=
  .object (Assoc.insert "offset" (.ofNat offset) fields)

def pageOf : Except HarnessError ToolResult → Option (Page Json)
  | .error _ => none
  | .ok result => do
    let items ← (result.content.get "matches").bind Json.asArray
    let hasMore ← (result.content.get "has_more").bind Json.asBool
    return { items, hasMore }

theorem get_atOffset_other {key : String} (other : key ≠ "offset") (fields : List (String × Json)) (offset : Nat) :
    (atOffset fields offset).get key = (object fields).get key :=
  Assoc.lookup_insert_other other _ _

theorem get_atOffset (fields : List (String × Json)) {offset : Nat} (word : offset < 2 ^ 64) :
    ((atOffset fields offset).get "offset").bind asU64 = some offset := by
  rw [atOffset, Json.get_object, Assoc.lookup_insert_self, Option.bind_some, Json.ofNat, asU64,
    UInt64.toNat_ofNat_of_lt' word]

theorem saturatingAdd_of_le {a b : Nat} (word : a + b ≤ maxU64) : saturatingAdd a b = a + b := Nat.min_eq_left word

/-! ### A small workspace -/

theorem work_proper : Files.Proper ["work"] := by simp [Files.Proper]

/-- A workspace for a single file. -/
def logWorkspace : Workspace := ⟨["work"], work_proper⟩

def logTree (text : String) : FileTree := { entries := [("work", .folder [("log", .file text.toUTF8)])] }

/-- A log that says the same over and over. -/
def repeatedLog (times : Nat) : String := String.ofList (List.replicate times ['a', '\n']).flatten

theorem lines_repeatedLog (times : Nat) : lines (repeatedLog times) = List.replicate times "a" := by
  rw [lines, repeatedLog, String.toList_ofList]
  induction times with
  | zero => rfl
  | succ times ih =>
    rw [List.replicate_succ, List.flatten_cons, List.replicate_succ, ← ih]
    simp [linesWithEnds, stripLineEnd]

theorem walk_logTree (text : String) : logWorkspace.walk (logTree text) "." false = .ok ["log"] := by
  rfl

theorem textOf_logTree (text : String) : logWorkspace.textOf (logTree text) "log" = some text := by
  have read : logWorkspace.bytesOf (logTree text) "log" = .ok text.toUTF8 := by rfl
  rw [Workspace.textOf, read]
  simp only [Utf8.readText_toUTF8]
  rfl

/-! ### By regular expression -/

section

variable (engine : RegexEngine) (workspace : Workspace) (tree : FileTree)

def grepMatches (plan : GrepPlan) (contextLines : Nat) : List Json :=
  (plan.files.map (grepFile workspace tree plan contextLines)).flatten

variable {fields : List (String × Json)} {request : GrepRequest} {offset : Nat} {plan : GrepPlan}

theorem parse_atOffset (parsed : GrepRequest.parse (.object fields) = .ok request) (word : offset < 2 ^ 64) :
    GrepRequest.parse (atOffset fields offset) = .ok { request with skip := offset } := by
  have kept {key : String} (other : key ≠ "offset") := get_atOffset_other other fields offset
  -- Every other field is read as before.
  have pattern : requiredString "grep" (atOffset fields offset) "pattern" =
      requiredString "grep" (.object fields) "pattern" := by
    simp [requiredString, getStr, kept (show "pattern" ≠ "offset" by decide)]
  have verbosity : parseVerbosity "grep" (atOffset fields offset) = parseVerbosity "grep" (.object fields) := by
    simp [parseVerbosity, getStr, kept (show "verbosity" ≠ "offset" by decide)]
  rw [GrepRequest.parse] at parsed ⊢
  obtain ⟨text, required, parsed⟩ := Except.bind_eq_ok.1 parsed
  obtain ⟨shown, chosen, parsed⟩ := Except.bind_eq_ok.1 parsed
  cases parsed
  rw [pattern, required, verbosity, chosen]
  simp only [optionalBool, optionalUsize, getStr, get_atOffset fields word,
    kept (show "path" ≠ "offset" by decide), kept (show "case_insensitive" ≠ "offset" by decide),
    kept (show "include_ignored" ≠ "offset" by decide), kept (show "context_lines" ≠ "offset" by decide),
    kept (show "glob" ≠ "offset" by decide), kept (show "limit" ≠ "offset" by decide)]
  rfl

theorem grepFile_length_le (plan : GrepPlan) (contextLines : Nat) (relative : String) :
    (grepFile workspace tree plan contextLines relative).length ≤ maxGrepFileBytes := by
  rw [grepFile]
  split
  · exact Nat.zero_le _
  · next content searched =>
    have bounded : content.toList.length ≤ maxGrepFileBytes := by
      rw [grepText] at searched
      split at searched
      · cases searched
      · next kind known =>
        split at searched
        · cases searched
        · next small => exact Nat.le_trans (workspace.textOf_length_le tree searched known) (Nat.le_of_not_lt small)
    -- A line matches at most once, and there are no more lines than characters.
    refine Nat.le_trans (List.length_filterMap_le _ _) ?_
    rw [List.length_zipIdx]
    exact Nat.le_trans (length_lines_le content) bounded

section

variable (planned : request.plan engine workspace tree = .ok plan)

include planned

theorem plan_files_length_le : plan.files.length ≤ maxFilesWalked := by
  rw [GrepRequest.plan] at planned
  obtain ⟨regex, -, planned⟩ := Except.bind_eq_ok.1 planned
  obtain ⟨glob, -, planned⟩ := Except.bind_eq_ok.1 planned
  obtain ⟨visited, walked, planned⟩ := Except.bind_eq_ok.1 planned
  cases planned
  rw [List.length_mergeSort]
  exact Nat.le_trans (List.length_filter_le _ _) (workspace.walk_length_le tree walked)

theorem grepMatches_length_le (contextLines : Nat) :
    (grepMatches workspace tree plan contextLines).length ≤ maxFilesWalked * maxGrepFileBytes := by
  have each : ∀ length ∈ plan.files.map fun file => (grepFile workspace tree plan contextLines file).length,
      length ≤ maxGrepFileBytes := by
    intro length member
    obtain ⟨file, -, rfl⟩ := List.mem_map.1 member
    exact grepFile_length_le workspace tree plan contextLines file
  have total := List.sum_le_card_nsmul _ _ each
  rw [List.length_map, Nat.nsmul_eq_mul] at total
  rw [grepMatches, List.length_flatten, List.map_map]
  exact Nat.le_trans total (Nat.mul_le_mul_right _ (plan_files_length_le engine workspace tree planned))

theorem grepPage_eq_window (inside : offset ≤ (grepMatches workspace tree plan request.contextLines).length) :
    (grepPage workspace tree plan request.contextLines offset request.want).toPage =
      window (grepMatches workspace tree plan request.contextLines) request.want offset := by
  have few := grepMatches_length_le engine workspace tree planned request.contextLines
  have sized := request.sized
  -- No sum comes near the largest machine word.
  have room : offset + request.want + 1 ≤ maxU64 := by
    rw [maxFilesWalked, maxGrepFileBytes] at few
    rw [maxGrepLimit] at sized
    rw [maxU64]
    omega
  have window_eq := window_scan (grepMatches workspace tree plan request.contextLines) request.want offset
  rw [← window_eq]
  simp only [grepPage, saturatingAdd_of_le (Nat.le_of_succ_le room), saturatingAdd_of_le room,
    fillGroups_eq _ (show ([] : List Json).length < offset + request.want + 1 from Nat.succ_pos _), List.nil_append]
  rfl

end

def grepCall (fields : List (String × Json)) (offset : Nat) : Option (Page Json) :=
  pageOf (grep engine workspace tree (atOffset fields offset))

theorem grepCall_eq (parsed : GrepRequest.parse (.object fields) = .ok request)
    (planned : request.plan engine workspace tree = .ok plan)
    (inside : offset ≤ (grepMatches workspace tree plan request.contextLines).length) :
    grepCall engine workspace tree fields offset =
      some (window (grepMatches workspace tree plan request.contextLines) request.want offset) := by
  have word : offset < 2 ^ 64 := by
    have few := grepMatches_length_le engine workspace tree planned request.contextLines
    rw [maxFilesWalked, maxGrepFileBytes] at few
    omega
  have same : GrepRequest.plan engine workspace tree { request with skip := offset } = .ok plan := planned
  rw [← grepPage_eq_window engine workspace tree planned inside, grepCall, grep, parse_atOffset parsed word]
  simp only [bind, Except.bind, same]
  rfl

/--
The pages of a search by regular expression are the complete list of its matches.

They are followed from the start, advancing by the number of matches returned, while the tree does not
change. The size of a page is brought into its limits, whatever is asked for.
-/
theorem grep_pages_complete (fields : List (String × Json)) {request : GrepRequest} {plan : GrepPlan}
    (parsed : GrepRequest.parse (.object fields) = .ok request)
    (planned : request.plan engine workspace tree = .ok plan) :
    (∃ pages, Followed (grepCall engine workspace tree fields) 0 pages ∧
        pages.flatten = grepMatches workspace tree plan request.contextLines) ∧
      ∀ offset ≤ (grepMatches workspace tree plan request.contextLines).length,
        ∃ here, grepCall engine workspace tree fields offset = some here ∧ here.items.length ≤ request.want ∧
          (here.hasMore = true ↔
            offset + here.items.length < (grepMatches workspace tree plan request.contextLines).length) := by
  have windows : ∀ offset, offset ≤ (grepMatches workspace tree plan request.contextLines).length → _ :=
    fun _ inside => grepCall_eq engine workspace tree parsed planned inside
  refine ⟨exists_followed request.sized.1 windows (Nat.zero_le _), ?_⟩
  intro offset inside
  exact ⟨_, windows offset inside, List.length_take_le _ _, hasMore_window_iff inside⟩

/-- An engine for which every expression is a text to look for. -/
def literalEngine : RegexEngine where
  build pattern _ := .ok fun line => containsText line pattern
  new pattern := .ok fun line => containsText line pattern
  escape text := text

/-- Three matches of an expression are followed page by page. -/
theorem grep_pages_three : ∃ pages, Followed (grepCall literalEngine logWorkspace (logTree (repeatedLog 3))
        [("limit", .ofNat 1), ("pattern", .string "a")]) 0 pages ∧
      pages.flatten = grepMatches logWorkspace (logTree (repeatedLog 3))
        ⟨["log"], fun line => containsText line "a"⟩ 0 := by
  have planned : GrepRequest.plan literalEngine logWorkspace (logTree (repeatedLog 3))
      ⟨"a", ".", false, false, 0, none, 0, 1, by decide⟩ = .ok ⟨["log"], fun line => containsText line "a"⟩ := by
    simp [GrepRequest.plan, GrepRequest.compile, GrepRequest.compileGlob, literalEngine, walk_logTree, Except.bind,
      Except.mapError, bind, pure, Except.pure]
  exact (grep_pages_complete literalEngine logWorkspace _ _ rfl planned).1

/-! ### By text -/

def searchMatches (query : String) (files : List String) : List Json :=
  (files.map (searchFile workspace tree query)).flatten

def searchCall (fields : List (String × Json)) (offset : Nat) : Option (Page Json) :=
  pageOf (searchText workspace tree (atOffset fields offset))

def pageLimit (fields : List (String × Json)) : Nat := ((fields.lookup "limit").bind asU64).getD maxSearchMatches

theorem searchScan_eq (query : String) (files : List String) (skip want : Nat) :
    searchScan workspace tree query files skip want =
      ((searchMatches workspace tree query files).take maxSearchMatches).take (skip + want + 1) := by
  -- The ceiling is far below the word at which the sums are cut.
  have cap : min (saturatingAdd (saturatingAdd skip want) 1) maxSearchMatches =
      min (skip + want + 1) maxSearchMatches := by
    rw [saturatingAdd, saturatingAdd, maxSearchMatches, maxU64]
    omega
  have positive : ([] : List Json).length < min (skip + want + 1) maxSearchMatches := by
    rw [maxSearchMatches, List.length_nil]
    omega
  rw [searchScan, cap, fillGroups_eq _ positive, List.nil_append, List.take_take]
  rfl

theorem searchPage_eq_window (query : String) (files : List String) {skip want : Nat} (word : skip + want < 2 ^ 64) :
    searchPage workspace tree query files skip want =
      window ((searchMatches workspace tree query files).take maxSearchMatches) want skip := by
  rw [← window_scan, searchPage, searchScan_eq, Nat.mod_eq_of_lt word]
  rfl

theorem searchCall_eq {query : String} {files : List String}
    (required : requiredString "search_text" (.object fields) "query" = .ok query)
    (found : searchFiles workspace tree (((object fields).getStr "path").getD ".") = .ok files)
    (word : offset + pageLimit fields < 2 ^ 64) : searchCall workspace tree fields offset =
      some (window ((searchMatches workspace tree query files).take maxSearchMatches) (pageLimit fields) offset) := by
  have kept {key : String} (other : key ≠ "offset") := get_atOffset_other other fields offset
  have asked : requiredString "search_text" (atOffset fields offset) "query" = .ok query := by
    rw [← required]
    simp [requiredString, getStr, kept (show "query" ≠ "offset" by decide)]
  have place : (atOffset fields offset).getStr "path" = (object fields).getStr "path" := by
    simp [getStr, kept (show "path" ≠ "offset" by decide)]
  rw [← searchPage_eq_window workspace tree query files word, searchCall, searchText, asked]
  simp only [bind, Except.bind, place, found, get_atOffset fields (show offset < 2 ^ 64 by omega),
    kept (show "limit" ≠ "offset" by decide), Option.isNone_some, Bool.false_and, Bool.false_eq_true, if_false]
  rfl

theorem pageLimit_lt (fields : List (String × Json)) : pageLimit fields < 2 ^ 64 := by
  rw [pageLimit]
  cases given : (fields.lookup "limit").bind asU64 with
  | none =>
    rw [Option.getD_none, maxSearchMatches]
    omega
  | some limit =>
    obtain ⟨value, -, number⟩ := Option.bind_eq_some_iff.1 given
    unfold asU64 at number
    split at number
    · next word =>
      cases number
      exact word.toNat_lt
    · cases number

theorem search_followed {query : String} {files : List String}
    (required : requiredString "search_text" (.object fields) "query" = .ok query)
    (found : searchFiles workspace tree (((object fields).getStr "path").getD ".") = .ok files)
    (positive : 1 ≤ pageLimit fields) : ∃ pages, Followed (searchCall workspace tree fields) 0 pages ∧
      pages.flatten = (searchMatches workspace tree query files).take maxSearchMatches := by
  have few := List.length_take_le maxSearchMatches (searchMatches workspace tree query files)
  by_cases small : maxSearchMatches + pageLimit fields < 2 ^ 64
  · exact exists_followed positive
      (fun offset inside => searchCall_eq workspace tree required found (by omega)) (Nat.zero_le _)
  · -- A limit this large takes everything on the first page.
    have limit := pageLimit_lt fields
    have first := searchCall_eq workspace tree required found
      (show 0 + pageLimit fields < 2 ^ 64 by rwa [Nat.zero_add])
    rw [maxSearchMatches] at few small
    refine ⟨_, .last first ?_, ?_⟩
    · simp only [window, maxSearchMatches]
      exact decide_eq_false (by omega)
    · simp only [window, List.drop_zero, List.flatten_cons, List.flatten_nil, List.append_nil, maxSearchMatches]
      exact List.take_of_length_le (by omega)

/--
The pages of a search by text are all of its matches exactly when there are no more than the ceiling.

A scan never goes behind the ceiling, so the last page below it says that there is no more.
-/
theorem search_pages_iff (fields : List (String × Json)) {query : String} {files : List String}
    (required : requiredString "search_text" (.object fields) "query" = .ok query)
    (found : searchFiles workspace tree (((object fields).getStr "path").getD ".") = .ok files)
    (positive : 1 ≤ pageLimit fields) : ∃ pages, Followed (searchCall workspace tree fields) 0 pages ∧
      (pages.flatten.Perm (searchMatches workspace tree query files) ↔
        (searchMatches workspace tree query files).length ≤ maxSearchMatches) := by
  obtain ⟨pages, followed, flat⟩ := search_followed workspace tree required found positive
  refine ⟨pages, followed, ?_⟩
  rw [flat]
  constructor
  · intro same
    have length := same.length_eq
    rw [List.length_take] at length
    omega
  · intro few
    rw [List.take_of_length_le few]

end

theorem searchFiles_logTree (text : String) : searchFiles logWorkspace (logTree text) "." = .ok ["log"] := by
  rw [searchFiles, walk_logTree]
  exact congrArg Except.ok (List.mergeSort_singleton _)

theorem searchMatches_repeatedLog (times : Nat) :
    (searchMatches logWorkspace (logTree (repeatedLog times)) "a" ["log"]).length = times := by
  have same : containsText "a" "a" = true := by decide +kernel
  simp only [searchMatches, searchFile, textOf_logTree, lines_repeatedLog, List.map_cons, List.map_nil,
    List.flatten_cons, List.flatten_nil, List.append_nil]
  rw [List.length_filterMap_eq_countP, List.countP_eq_length.2, List.length_zipIdx, List.length_replicate]
  rintro ⟨line, index⟩ member
  have repeated : line = "a" := List.eq_of_mem_replicate (List.fst_mem_of_mem_zipIdx member)
  simp [repeated, same]

/-- The arguments of a search for a text with so many matches on a page. -/
def searchArguments (limit : Nat) : List (String × Json) := [("limit", .ofNat limit), ("query", .string "a")]

/-- Of two hundred and one matches the last one is on no page. -/
theorem match_behind_ceiling_lost :
    ∃ pages, Followed (searchCall logWorkspace (logTree (repeatedLog 201)) (searchArguments 50)) 0 pages ∧
      pages.flatten.length = 200 ∧
      (searchMatches logWorkspace (logTree (repeatedLog 201)) "a" ["log"]).length = 201 := by
  have required : requiredString "search_text" (.object (searchArguments 50)) "query" = .ok "a" := rfl
  obtain ⟨pages, followed, flat⟩ :=
    search_followed logWorkspace _ required (searchFiles_logTree (repeatedLog 201)) (by decide +kernel)
  refine ⟨pages, followed, ?_, searchMatches_repeatedLog 201⟩
  rw [flat, List.length_take, searchMatches_repeatedLog]
  rfl

/-- Three matches are told on three pages of one. -/
theorem search_pages_three :
    ∃ pages, Followed (searchCall logWorkspace (logTree (repeatedLog 3)) (searchArguments 1)) 0 pages ∧
      (pages.flatten.Perm (searchMatches logWorkspace (logTree (repeatedLog 3)) "a" ["log"]) ↔
        (searchMatches logWorkspace (logTree (repeatedLog 3)) "a" ["log"]).length ≤ maxSearchMatches) :=
  search_pages_iff logWorkspace _ (searchArguments 1) rfl (searchFiles_logTree (repeatedLog 3)) (by decide +kernel)

end Codel00p
