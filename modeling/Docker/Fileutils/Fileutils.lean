import Mathlib
import Docker.Reasoning.Glob
import Docker.Reasoning.RegexSyntax
import Docker.Reasoning.LexPath
import Docker.Dockerfile.Parser
import Docker.Dockerfile.Shell

/-!
# Fileutils — `.dockerignore` matching of `pkg/fileutils/fileutils.go`

`regexpMatch(pattern, path)` calls `filepath.Match` only for its error, then turns the pattern
into a regular expression (`regStr`: `*` is `[^/]*`, `?` is `[^/]`, `**` any run of components,
`.` and `$` escaped, everything else passed through) and asks `regexp.MatchString`.  Every error
becomes `filepath.ErrBadPattern`.  The result is `none` when the expression uses syntax that
`RegexSyntax` leaves out.

`Matches(file, patterns)` cleans the file and the patterns (`CleanPatterns`: `TrimSpace`, drop
empty ones, refuse a bare `!`, `filepath.Clean` the pattern with its `!`) and runs
`OptimizedMatches`: each pattern, its `!` dropped, is matched against the file and, when that
fails, against the file's ancestor with as many components as the pattern; the last pattern that
matches decides, an exclusion `!` answering `false`.

Two places where this is not `filepath.Match` with exclusions: characters that are literal in a
glob but not in a regular expression (`+`, `(`, `|`, …) keep their regexp meaning
(`regexpMatch_plus_diverges`), and a pattern is cleaned before its `!` is dropped, so `!./foo`
keeps its `./` (`matches_exclusion_not_cleaned`).
-/

namespace Docker.Fileutils

open Reasoning LexPath
open Docker.Dockerfile (trimSpace scannerInit)

/-! ## 1. `regexpMatch` -/

/-- The loop of `regexpMatch` over the pattern's runes (`scan.Next`, `scan.Peek`), with `/` as
the separator: the expression between `^` and `$`. -/
def regStrBody : List Char → List Char
  | [] => []
  -- `**` at the end accepts everything, as `.gitignore` does
  | ['*', '*'] => ".*".toList
  -- `**/` is `**`: the slash is eaten
  | '*' :: '*' :: '/' :: rest => "((.*/)|([^/]*))".toList ++ regStrBody rest
  | '*' :: '*' :: rest => "((.*/)|([^/]*))".toList ++ regStrBody rest
  | '*' :: rest => "[^/]*".toList ++ regStrBody rest
  | '?' :: rest => "[^/]".toList ++ regStrBody rest
  | '.' :: rest => '\\' :: '.' :: regStrBody rest
  | '$' :: rest => '\\' :: '$' :: regStrBody rest
  | ['\\'] => ['\\']
  | '\\' :: c :: rest => '\\' :: c :: regStrBody rest
  | c :: rest => c :: regStrBody rest

/-- The expression `regexpMatch` builds; its scanner skips a leading byte order mark. -/
def regStr (pattern : List Char) : List Char :=
  '^' :: regStrBody (scannerInit pattern) ++ ['$']

/-- `regexpMatch`; an error is `filepath.ErrBadPattern`. -/
def regexpMatch (pattern path : List Char) : Option (Except Unit Bool) :=
  match Glob.filepathMatch pattern path with
  | .error _ => some (.error ())
  | .ok _ =>
    match RegexSyntax.matchString (regStr pattern) path with
    | .ok b => some (.ok b)
    | .error .invalid => some (.error ())
    | .error .unsupported => none

/-! ## 2. `CleanPatterns`, `OptimizedMatches`, `Matches` -/

-- `pattern[0] == '!'`; every pattern it is asked about is not empty
def exclusion (pattern : List Char) : Bool :=
  pattern.head? = some '!'

def errIllegalExclusion : List Char := "Illegal exclusion pattern: !".toList

-- `strings.Split` of the cleaned pattern, its `!` dropped
def patternDirsOf (cleaned : List Char) : List (List Char) :=
  (if exclusion cleaned then cleaned.tail else cleaned).splitOn '/'

/-- `CleanPatterns`: the cleaned patterns, the components of each (its `!` dropped after
cleaning), and whether one of them is an exclusion. -/
def cleanPatterns :
    List (List Char) → Except (List Char) (List (List Char) × List (List (List Char)) × Bool)
  | [] => .ok ([], [], false)
  | pattern :: patterns =>
    let pattern := trimSpace pattern
    if pattern.isEmpty then cleanPatterns patterns
    else if exclusion pattern && pattern.length == 1 then .error errIllegalExclusion
    else
      match cleanPatterns patterns with
      | .error e => .error e
      | .ok (cleanedPatterns, patternDirs, exceptions) =>
        .ok (clean pattern :: cleanedPatterns, patternDirsOf (clean pattern) :: patternDirs,
          exclusion pattern || exceptions)

def errorInPattern (pattern : List Char) : List Char :=
  "Error in pattern (".toList ++ pattern ++ "): syntax error in pattern".toList

/-- The parent check of `OptimizedMatches`: when the file did not match, the pattern's
components against as many leading components of the file's directory; an error there reads as
no match (`match, _ = regexpMatch(...)`). -/
def parentMatch (m : Bool) (parentPath : List Char) (parentPathDirs dirs : List (List Char)) :
    Option Bool :=
  if !m && parentPath != ['.'] && dirs.length ≤ parentPathDirs.length then
    (regexpMatch (List.intercalate ['/'] dirs)
      (List.intercalate ['/'] (parentPathDirs.take dirs.length))).map fun r =>
        match r with
        | .ok b => b
        | .error _ => false
  else some m

/-- One round of `OptimizedMatches`' loop: whether the pattern, its `!` dropped, matches the
file, or else the ancestor of the parent check. -/
def patternMatch (file parentPath : List Char) (parentPathDirs : List (List Char))
    (pattern : List Char) (dirs : List (List Char)) : Option (Except (List Char) Bool) :=
  let pattern := if exclusion pattern then pattern.tail else pattern
  match regexpMatch pattern file with
  | none => none
  | some (.error _) => some (.error (errorInPattern pattern))
  | some (.ok m) => (parentMatch m parentPath parentPathDirs dirs).map .ok

/-- The loop of `OptimizedMatches` over the patterns with their components. -/
def matchesLoop (file parentPath : List Char) (parentPathDirs : List (List Char)) (matched : Bool) :
    List (List Char × List (List Char)) → Option (Except (List Char) Bool)
  | [] => some (.ok matched)
  | (pattern, dirs) :: rest =>
    match patternMatch file parentPath parentPathDirs pattern dirs with
    | none => none
    | some (.error e) => some (.error e)
    | some (.ok m) =>
      matchesLoop file parentPath parentPathDirs (if m then !exclusion pattern else matched) rest

/-- `OptimizedMatches`; the two slices `CleanPatterns` gives have one entry per pattern. -/
def optimizedMatches (file : List Char) (patterns : List (List Char))
    (patDirs : List (List (List Char))) : Option (Except (List Char) Bool) :=
  matchesLoop file (dir file) ((dir file).splitOn '/') false (patterns.zip patDirs)

/-- `Matches` (a keyword in Lean). -/
def matchesFile (file : List Char) (patterns : List (List Char)) : Option (Except (List Char) Bool) :=
  let file := clean file
  -- excluding `.` would exclude everything
  if file = ['.'] then some (.ok false) else
  match cleanPatterns patterns with
  | .error e => some (.error e)
  | .ok (cleaned, patDirs, _) => optimizedMatches file cleaned patDirs

example : matchesFile "docs/README.md".toList ["docs".toList, "!docs/README.md".toList] =
    some (.ok false) := by decide +kernel

/-! ## 3. The last pattern that matches decides -/

/-- The answer of the last `(negative, hit)` entry that hits, or `matched` when none does. -/
def lastSign (matched : Bool) (l : List (Bool × Bool)) : Bool :=
  match l.reverse.find? (·.2) with
  | some (negative, _) => !negative
  | none => matched

/-- A later hit overrides an earlier one: the loop's accumulator is `lastSign` of what it read. -/
theorem lastSign_cons (matched negative hit : Bool) (l : List (Bool × Bool)) :
    lastSign matched ((negative, hit) :: l) = lastSign (if hit then !negative else matched) l := by
  unfold lastSign
  rw [List.reverse_cons, List.find?_append]
  cases hl : l.reverse.find? (·.2) with
  | some e => rfl
  | none => cases hit <;> rfl

/-- Where every pattern gives an answer, the loop returns the answer of the last one that hits. -/
theorem matchesLoop_eq_lastSign {file parentPath : List Char} {parentPathDirs : List (List Char)}
    {entries : List (List Char × List (List Char))} (hits : List Char × List (List Char) → Bool)
    (h : ∀ e ∈ entries, patternMatch file parentPath parentPathDirs e.1 e.2 = some (.ok (hits e)))
    (matched : Bool) :
    matchesLoop file parentPath parentPathDirs matched entries =
      some (.ok (lastSign matched (entries.map fun e => (exclusion e.1, hits e)))) := by
  induction entries generalizing matched with
  | nil => rfl
  | cons e entries ih =>
    obtain ⟨pattern, dirs⟩ := e
    have he := h (pattern, dirs) List.mem_cons_self
    rw [matchesLoop, he, List.map_cons, lastSign_cons]
    exact ih (fun e he' => h e (List.mem_cons_of_mem _ he')) _

/-- The patterns `CleanPatterns` keeps: trimmed, the empty ones dropped. -/
def trimmed (patterns : List (List Char)) : List (List Char) :=
  (patterns.map trimSpace).filter fun p => !p.isEmpty

theorem cleanPatterns_eq_ok {patterns : List (List Char)} (h : ∀ p ∈ patterns, trimSpace p ≠ ['!']) :
    cleanPatterns patterns =
      .ok ((trimmed patterns).map clean, (trimmed patterns).map (patternDirsOf ∘ clean),
        (trimmed patterns).any exclusion) := by
  induction patterns with
  | nil => rfl
  | cons p patterns ih =>
    have hrest := ih fun q hq => h q (List.mem_cons_of_mem _ hq)
    have hp := h p List.mem_cons_self
    simp only [cleanPatterns, trimmed, List.map_cons, List.filter_cons] at hrest ⊢
    by_cases hempty : (trimSpace p).isEmpty
    · simp only [hempty, if_true, Bool.not_true, Bool.false_eq_true, if_false]
      exact hrest
    · -- a pattern of one character that is `!` is the bare exclusion `h` rules out
      have hbang : ¬ (exclusion (trimSpace p) && (trimSpace p).length == 1) := by
        intro hb
        simp only [exclusion, Bool.and_eq_true, beq_iff_eq, decide_eq_true_eq] at hb
        obtain ⟨hhead, hlen⟩ := hb
        match hq : trimSpace p, hhead, hlen with
        | [c], hc, _ =>
          simp only [List.head?_cons, Option.some.injEq] at hc
          exact hp (hq.trans (by rw [hc]))
      simp only [hempty, hbang, Bool.not_false, if_true, Bool.false_eq_true, if_false, hrest,
        List.map_cons, Function.comp_apply, List.any_cons]

/-- `Matches` answers as the last pattern that matches: the pattern as `CleanPatterns` leaves
it, cleaned with its `!`, and the `!` dropped after. -/
theorem matchesFile_eq_lastSign {file : List Char} {patterns : List (List Char)}
    (hfile : clean file ≠ ['.']) (hbang : ∀ p ∈ patterns, trimSpace p ≠ ['!'])
    (hits : List Char → Bool)
    (h : ∀ q ∈ trimmed patterns,
      patternMatch (clean file) (dir (clean file)) ((dir (clean file)).splitOn '/') (clean q)
        (patternDirsOf (clean q)) = some (.ok (hits (clean q)))) :
    matchesFile file patterns =
      some (.ok (lastSign false
        ((trimmed patterns).map fun q => (exclusion (clean q), hits (clean q))))) := by
  have hentries : ∀ e ∈ (trimmed patterns).map (fun q => (clean q, patternDirsOf (clean q))),
      patternMatch (clean file) (dir (clean file)) ((dir (clean file)).splitOn '/') e.1 e.2 =
        some (.ok (hits e.1)) := by
    intro e he
    obtain ⟨q, hq, rfl⟩ := List.mem_map.mp he
    exact h q hq
  unfold matchesFile
  rw [if_neg hfile, cleanPatterns_eq_ok hbang]
  simp only [optimizedMatches, List.zip_map', Function.comp_apply]
  rw [matchesLoop_eq_lastSign (fun e => hits e.1) hentries false, List.map_map]
  rfl

/-! ## 4. Where `regexpMatch` is not `filepath.Match` -/

theorem regexpMatch_plus_diverges :
    Glob.filepathMatch "a+b".toList "a+b".toList = .ok true ∧
      regexpMatch "a+b".toList "a+b".toList = some (.ok false) ∧
      matchesFile "a+b".toList ["a+b".toList] = some (.ok false) := by
  decide +kernel

/-! ## 5. An exclusion is cleaned with its `!` -/

theorem matches_exclusion_not_cleaned :
    matchesFile "foo".toList ["./foo".toList, "!./foo".toList] = some (.ok true) ∧
      clean "./foo".toList = "foo".toList ∧
      regexpMatch (clean "./foo".toList) "foo".toList = some (.ok true) := by
  decide +kernel

end Docker.Fileutils
