import Mathlib.Data.List.Basic
import Mathlib.Data.Int.Init

/-!
# Parser — the Dockerfile parser of `builder/dockerfile/parser`

`Parse` reads the file line by line (`bufio.ScanLines`).  Each line goes to `ParseLine`, which
handles the `# escape=` directive, comments, and a trailing escape token that continues the line;
otherwise it splits off the instruction and its `--` flags (`splitCommand`) and hands the
arguments to the instruction's line parser.  A continued line is read on, skipping blank and
comment lines, until `ParseLine` returns an instruction; at the end of the file whatever is left is
parsed once more.

The line parsers of the dispatch table are a parameter `dispatch` here: the line numbering does
not depend on them.  `Parse` numbers every instruction with the lines it spans, in order and
without overlap, and gives the root the end line of the last instruction.  The root's start line,
though, is the *end* line of the first instruction (`parse_line_information`), so it is not the
line the first instruction starts on when that instruction is continued
(`parse_root_starts_at_first_end_line`).

Text is a list of characters; the byte-level behaviour of invalid UTF-8 is left out.
-/

namespace Docker.Dockerfile

/-! ## 1. Text -/

/-- `unicode.IsSpace`.  Irreducible, so that unfolding a loop that tests it never evaluates it on a
variable. -/
@[irreducible] def isSpace (c : Char) : Bool :=
  c = '\t' || c = '\n' || c = '\x0b' || c = '\x0c' || c = '\r' || c = ' ' || c = '\x85' ||
    c = '\xa0' || c = '\u1680' || ('\u2000' ≤ c && c ≤ '\u200a') || c = '\u2028' ||
    c = '\u2029' || c = '\u202f' || c = '\u205f' || c = '\u3000'

-- `strings.TrimLeftFunc(s, unicode.IsSpace)`
def trimLeftSpace (s : List Char) : List Char :=
  s.dropWhile isSpace

-- `strings.TrimSpace`
def trimSpace (s : List Char) : List Char :=
  ((trimLeftSpace s).reverse.dropWhile isSpace).reverse

-- `[ \t]`
def isBlank (c : Char) : Bool :=
  c = ' ' || c = '\t'

-- `tokenWhitespace`: `[\t\v\f\r ]`
def isTokenWhitespace (c : Char) : Bool :=
  c = '\t' || c = '\x0b' || c = '\x0c' || c = '\r' || c = ' '

-- `bytes.TrimPrefix(line, utf8bom)`
def trimBOM : List Char → List Char
  | '\uFEFF' :: rest => rest
  | line => line

-- `bufio.ScanLines` drops a carriage return before the newline
def dropCR (line : List Char) : List Char :=
  if line.getLast? = some '\r' then line.dropLast else line

/-- The lines `bufio.Scanner` with `ScanLines` yields: a final newline ends the last line and
does not start another.  The scanner's 64 KiB limit on a line is left out. -/
def scanLines (input : List Char) : List (List Char) :=
  let pieces := input.splitOn '\n'
  (if pieces.getLast? = some [] then pieces.dropLast else pieces).map dropCR

/-! ## 2. `ParseLine` -/

/-- `Directive`.  `LineContinuationRegex` is `\<EscapeToken>[ \t]*$`, so it is kept as the
escape token it is built from. -/
structure Directive where
  escapeToken : Char
  lookingForDirectives : Bool
  escapeSeen : Bool
  deriving DecidableEq, Repr

/-- A fresh `Directive{LookingForDirectives: true}` after `SetEscapeToken(DefaultEscapeToken, &d)`. -/
def initialDirective : Directive := ⟨'\\', true, false⟩

inductive ParseError (ε : Type) where
  | escapeRepeated
  | invalidEscape (s : Char)
  | dispatch (e : ε)
  deriving DecidableEq, Repr

def ParseError.message {ε : Type} (msg : ε → String) : ParseError ε → String
  | .escapeRepeated => "only one escape parser directive can be used"
  | .invalidEscape s => "invalid ESCAPE '" ++ String.singleton s ++ "'. Must be ` or \\"
  | .dispatch e => msg e

def setEscapeToken {ε : Type} (s : Char) (d : Directive) : Except (ParseError ε) Directive :=
  if s ≠ '`' ∧ s ≠ '\\' then .error (.invalidEscape s)
  else .ok { d with escapeToken := s }

-- `[ \t]*(?P<escapechar>.)`: the first character after the blanks, or the last blank when
-- nothing follows them
def escapeChar (rest : List Char) : Option Char :=
  match rest.dropWhile isBlank with
  | c :: _ => some c
  | [] => rest.getLast?

/-- The character `tokenEscapeCommand`, `^#[ \t]*escape[ \t]*=[ \t]*(?P<escapechar>.).*$`,
captures in a line, if it matches.  `.` does not match a newline. -/
def escapeCommand (line : List Char) : Option Char :=
  if '\n' ∈ line then none
  else
    match line with
    | '#' :: rest =>
      let rest := rest.dropWhile isBlank
      if "escape".toList.isPrefixOf rest then
        match (rest.drop 6).dropWhile isBlank with
        | '=' :: rest => escapeChar rest
        | _ => none
      else none
    | _ => none

/-- `stripComments`: `tokenComment`, `^#.*$`, matches the whole line or nothing. -/
def stripComments (line : List Char) : List Char :=
  if line.head? = some '#' ∧ '\n' ∉ line then [] else line

/-- `d.LineContinuationRegex.ReplaceAllString(line, "")` when the regex matches: the line
without its last escape token and the blanks after it. -/
def lineContinuation (escapeToken : Char) (line : List Char) : Option (List Char) :=
  match line.reverse.dropWhile isBlank with
  | c :: rest => if c = escapeToken then some rest.reverse else none
  | [] => none

-- the phases of `extractBuilderFlags` and `parseWords`
inductive Phase where
  | inSpaces
  | inWord
  | inQuote
  deriving DecidableEq, Repr

/-- The loop of `extractBuilderFlags`, from `pos` on: the rest of the line and the flags.  The
source reads the line byte by byte; here a character stands for a byte. -/
def extractBuilderFlagsLoop (phase : Phase) (words : List (List Char)) (word : List Char)
    (quote : Char) (blankOK : Bool) : List Char → List Char × List (List Char)
  | [] =>
    match phase with
    | .inSpaces => ([], words)
    | _ => ([], if word ≠ "--".toList ∧ (blankOK ∨ word ≠ []) then words ++ [word] else words)
  | ch :: rest =>
    if phase = .inSpaces ∧ isSpace ch then
      extractBuilderFlagsLoop .inSpaces words word quote blankOK rest
    -- only keep going if the next word starts with `--`
    else if phase = .inSpaces ∧ (ch ≠ '-' ∨ rest.head? ≠ some '-') then (ch :: rest, words)
    else
      match phase with
      | .inQuote =>
        if ch = quote then extractBuilderFlagsLoop .inWord words word quote blankOK rest
        else if ch = '\\' then
          match rest with
          | [] => extractBuilderFlagsLoop .inWord words word quote blankOK []
          | c :: rest => extractBuilderFlagsLoop .inQuote words (word ++ [c]) quote blankOK rest
        else extractBuilderFlagsLoop .inQuote words (word ++ [ch]) quote blankOK rest
      | _ =>
        -- in a word, also one that has just begun with `--`
        if isSpace ch then
          if word = "--".toList then (ch :: rest, words)
          else
            extractBuilderFlagsLoop .inSpaces
              (if blankOK ∨ word ≠ [] then words ++ [word] else words) [] quote false rest
        else if ch = '\'' ∨ ch = '"' then extractBuilderFlagsLoop .inQuote words word ch true rest
        else if ch = '\\' then
          match rest with
          | [] => extractBuilderFlagsLoop .inWord words word quote blankOK []
          | c :: rest => extractBuilderFlagsLoop .inWord words (word ++ [c]) quote blankOK rest
        else extractBuilderFlagsLoop .inWord words (word ++ [ch]) quote blankOK rest

def extractBuilderFlags (line : List Char) : List Char × List (List Char) :=
  extractBuilderFlagsLoop .inSpaces [] [] '\x00' false line

/-- `splitCommand(line)`: the lower-cased instruction, its flags and its arguments.
`strings.ToLower` is taken on ASCII letters. -/
def splitCommand (line : List Char) : List Char × List (List Char) × List Char :=
  let (cmd, rest) := (trimSpace line).span (fun c => !isTokenWhitespace c)
  let cmd := cmd.map Char.toLower
  if rest = [] then (cmd, [], [])
  else
    let (args, flags) := extractBuilderFlags (rest.dropWhile isTokenWhitespace)
    (cmd, flags, trimSpace args)

/-- An instruction's `Node`: `Value` is the instruction, `Next` and `Attributes` are what its
line parser returned (`σ`). -/
structure Node (σ : Type) where
  value : List Char
  next : σ
  original : List Char
  flags : List (List Char)
  startLine : Int
  endLine : Int
  deriving DecidableEq, Repr

/-- The root `Node` of `Parse`: only its line information and children are set. -/
structure Root (σ : Type) where
  children : List (Node σ)
  startLine : Int
  endLine : Int
  deriving DecidableEq, Repr

section Parse

variable {σ ε : Type} (dispatch : List Char → List Char → Directive → Except ε σ)

/-- `ParseLine(line, d)`: what is left of a continued line, or the instruction, with the
directive as `ParseLine` leaves it.  `dispatch cmd args d` is `fullDispatch`. -/
def parseLine (line : List Char) (d : Directive) :
    Except (ParseError ε) (List Char × Option (Node σ)) × Directive :=
  match (if d.lookingForDirectives then escapeCommand (line.map Char.toLower) else none) with
  | some c =>
    if d.escapeSeen then (.error .escapeRepeated, d)
    else
      match setEscapeToken c d with
      | .error e => (.error e, d)
      | .ok d => (.ok ([], none), { d with escapeSeen := true })
  | none =>
    let d := { d with lookingForDirectives := false }
    let line := stripComments line
    if line = [] then (.ok ([], none), d)
    else
      match lineContinuation d.escapeToken line with
      | some line => (.ok (line, none), d)
      | none =>
        let (cmd, flags, args) := splitCommand line
        match dispatch cmd args d with
        | .error e => (.error (.dispatch e), d)
        | .ok sexp => (.ok ([], some ⟨cmd, sexp, line, flags, 0, 0⟩), d)

/-! ## 3. `Parse` -/

/-- The line information `Parse` gives an instruction and the root when it appends it. -/
def addChild (root : Root σ) (child : Node σ) (startLine currentLine : Nat) : Root σ where
  children := root.children ++ [{ child with startLine := startLine, endLine := currentLine }]
  startLine := if root.startLine < 0 then currentLine else root.startLine
  endLine := currentLine

-- `if child != nil { … }`
def emitChild (root : Root σ) (child : Option (Node σ)) (startLine currentLine : Nat) : Root σ :=
  match child with
  | some child => addChild root child startLine currentLine
  | none => root

mutual

/-- The outer `for scanner.Scan()` loop of `Parse` over the lines still to read. -/
def scanLoop (currentLine : Nat) (root : Root σ) (d : Directive) :
    List (List Char) → Except (ParseError ε) (Root σ) × Directive
  | [] => (.ok root, d)
  | scanned :: rest =>
    -- the byte order mark is trimmed from the first line only
    let scanned := if currentLine = 0 then trimBOM scanned else scanned
    let currentLine := currentLine + 1
    match parseLine dispatch (trimLeftSpace scanned) d with
    | (.error e, d) => (.error e, d)
    | (.ok (line, child), d) =>
      let startLine := currentLine
      if line ≠ [] ∧ child = none then continueLoop startLine line currentLine root d rest
      else scanLoop currentLine (emitChild root child startLine currentLine) d rest

/-- The inner loop of `Parse`, reading on after a continued `line` that began on `startLine`. -/
def continueLoop (startLine : Nat) (line : List Char) (currentLine : Nat) (root : Root σ)
    (d : Directive) : List (List Char) → Except (ParseError ε) (Root σ) × Directive
  | [] =>
    -- the end of the file: what is left of the line is parsed once more
    if line ≠ [] then
      match parseLine dispatch line d with
      | (.error e, d) => (.error e, d)
      | (.ok (_, child), d) => (.ok (emitChild root child startLine currentLine), d)
    else (.ok root, d)
  | newline :: rest =>
    let currentLine := currentLine + 1
    if stripComments (trimSpace newline) = [] then
      continueLoop startLine line currentLine root d rest
    else
      match parseLine dispatch (line ++ newline) d with
      | (.error e, d) => (.error e, d)
      | (.ok (_, some child), d) =>
        scanLoop currentLine (emitChild root (some child) startLine currentLine) d rest
      | (.ok (line, none), d) => continueLoop startLine line currentLine root d rest

end

/-- `Parse(rwc, d)`: the root, and the directive as the parse leaves it. -/
def parse (input : List Char) (d : Directive) : Except (ParseError ε) (Root σ) × Directive :=
  scanLoop dispatch 0 ⟨[], -1, 0⟩ d (scanLines input)

end Parse

-- the escape directive, then an instruction continued over a blank and a comment line
example : parse (fun _ _ _ => (.ok () : Except Unit Unit))
      "# escape=`\nFROM a `\n\n# c\n  b\nRUN x\n".toList initialDirective =
    (.ok ⟨[⟨"from".toList, (), "FROM a   b".toList, [], 2, 5⟩,
        ⟨"run".toList, (), "RUN x".toList, [], 6, 6⟩], 5, 6⟩, ⟨'`', false, true⟩) := by
  decide +kernel

/-! ## 4. Line information -/

section Lines

variable {σ : Type}

/-- The line information of a root after `Parse` has read `currentLine` lines: every instruction
lies within them, they follow one another without overlap, and the root holds the *end* lines
of the first and the last instruction. -/
structure LinesOk (root : Root σ) (currentLine : Nat) : Prop where
  child_lines : ∀ c ∈ root.children,
    1 ≤ c.startLine ∧ c.startLine ≤ c.endLine ∧ c.endLine ≤ currentLine
  ordered : root.children.Pairwise (fun a b => a.endLine < b.startLine)
  root_start : root.startLine = (root.children.head?.map (·.endLine)).getD (-1)
  root_end : root.endLine = (root.children.getLast?.map (·.endLine)).getD 0

theorem linesOk_empty : LinesOk (⟨[], -1, 0⟩ : Root σ) 0 where
  child_lines := by simp
  ordered := List.Pairwise.nil
  root_start := rfl
  root_end := rfl

/-- Appending an instruction that starts after every line read so far. -/
theorem LinesOk.addChild {root : Root σ} {n startLine currentLine : Nat} (h : LinesOk root n)
    (hs : n < startLine) (he : startLine ≤ currentLine) (child : Node σ) :
    LinesOk (addChild root child startLine currentLine) currentLine := by
  constructor
  · intro c hc
    simp only [Dockerfile.addChild, List.mem_append, List.mem_singleton] at hc
    rcases hc with hc | rfl
    · have := h.child_lines c hc
      omega
    · dsimp only
      omega
  · refine List.pairwise_append.2 ⟨h.ordered, List.pairwise_singleton _ _, ?_⟩
    intro a ha b hb
    rw [List.mem_singleton] at hb
    subst hb
    have := h.child_lines a ha
    dsimp only
    omega
  · -- the root's start line is set by the first instruction only
    by_cases hnil : root.children = []
    · have hstart : root.startLine < 0 := by
        rw [h.root_start, hnil]
        simp only [List.head?_nil, Option.map_none, Option.getD_none]
        omega
      simp [Dockerfile.addChild, hnil, hstart]
    · obtain ⟨c, cs, hc⟩ := List.exists_cons_of_ne_nil hnil
      have hroot : root.startLine = c.endLine := by
        rw [h.root_start, hc]
        rfl
      have hc1 := h.child_lines c (by simp [hc])
      simp only [Dockerfile.addChild, hc, hroot, List.cons_append, List.head?_cons,
        Option.map_some, Option.getD_some]
      rw [if_neg (by omega)]
  · simp [Dockerfile.addChild]

theorem LinesOk.mono {root : Root σ} {n m : Nat} (h : LinesOk root n) (hle : n ≤ m) :
    LinesOk root m where
  child_lines c hc := by
    have := h.child_lines c hc
    omega
  ordered := h.ordered
  root_start := h.root_start
  root_end := h.root_end

theorem LinesOk.emitChild {root : Root σ} {n startLine currentLine : Nat} (h : LinesOk root n)
    (hs : n < startLine) (he : startLine ≤ currentLine) (child : Option (Node σ)) :
    LinesOk (emitChild root child startLine currentLine) currentLine := by
  cases child with
  | some child => exact h.addChild hs he child
  | none => exact h.mono (by omega)

variable {ε : Type} (dispatch : List Char → List Char → Directive → Except ε σ)

/-- Both loops of `Parse` keep the line information, by induction on the lines still to read:
the outer loop from any root that is `LinesOk` for the lines read, the inner loop also from a
continued line that began after them. -/
theorem loops_linesOk (lines : List (List Char)) :
    (∀ (currentLine : Nat) (root : Root σ) (d : Directive) (r : Root σ),
      LinesOk root currentLine →
      (scanLoop dispatch currentLine root d lines).1 = .ok r → ∃ m, LinesOk r m) ∧
    (∀ (startLine : Nat) (line : List Char) (currentLine : Nat) (root : Root σ) (d : Directive)
      (r : Root σ) (n : Nat), LinesOk root n → n < startLine → startLine ≤ currentLine →
      (continueLoop dispatch startLine line currentLine root d lines).1 = .ok r →
      ∃ m, LinesOk r m) := by
  induction lines with
  | nil =>
    constructor
    · intro currentLine root d r h hr
      rw [scanLoop] at hr
      cases hr
      exact ⟨currentLine, h⟩
    · intro startLine line currentLine root d r n h hs he hr
      rw [continueLoop] at hr
      by_cases hline : line ≠ []
      · rw [if_pos hline] at hr
        generalize parseLine dispatch line d = p at hr
        obtain ⟨_ | ⟨_, child⟩, d'⟩ := p
        · cases hr
        · cases hr
          exact ⟨currentLine, h.emitChild hs he child⟩
      · rw [if_neg hline] at hr
        cases hr
        exact ⟨n, h⟩
  | cons next rest ih =>
    constructor
    · intro currentLine root d r h hr
      rw [scanLoop] at hr
      generalize parseLine dispatch _ d = p at hr
      obtain ⟨_ | ⟨line, child⟩, d'⟩ := p
      · cases hr
      dsimp only at hr
      by_cases hcont : line ≠ [] ∧ child = none
      · -- a continued line: the inner loop takes over
        rw [if_pos hcont] at hr
        exact ih.2 _ _ _ _ _ r currentLine h (by omega) (by omega) hr
      · rw [if_neg hcont] at hr
        exact ih.1 _ _ _ r (h.emitChild (by omega) (by omega) child) hr
    · intro startLine line currentLine root d r n h hs he hr
      rw [continueLoop] at hr
      by_cases hblank : stripComments (trimSpace next) = []
      · rw [if_pos hblank] at hr
        exact ih.2 _ _ _ _ _ r n h hs (by omega) hr
      rw [if_neg hblank] at hr
      generalize parseLine dispatch (line ++ next) d = p at hr
      obtain ⟨_ | ⟨line', _ | child⟩, d'⟩ := p
      · cases hr
      · exact ih.2 _ _ _ _ _ r n h hs (by omega) hr
      · -- the continued instruction is complete: back to the outer loop
        exact ih.1 _ _ _ r (h.emitChild hs (by omega) (some child)) hr

theorem parse_linesOk {input : List Char} {d : Directive} {r : Root σ}
    (h : (parse dispatch input d).1 = .ok r) : ∃ n, LinesOk r n :=
  (loops_linesOk dispatch _).1 0 _ d r linesOk_empty h

/-- The line information of every parse with an instruction: the root starts on the *end* line
of the first instruction and ends on the end line of the last, every instruction spans lines from
its start line on, and each ends before the next starts. -/
theorem parse_line_information {input : List Char} {d : Directive} {r : Root σ}
    (h : (parse dispatch input d).1 = .ok r) (hne : r.children ≠ []) :
    r.startLine = (r.children.head hne).endLine ∧
      r.endLine = (r.children.getLast hne).endLine ∧
      (∀ c ∈ r.children, 1 ≤ c.startLine ∧ c.startLine ≤ c.endLine) ∧
      ∀ (i : Nat) (hi : i + 1 < r.children.length),
        r.children[i].endLine < r.children[i + 1].startLine := by
  obtain ⟨n, hr⟩ := parse_linesOk dispatch h
  refine ⟨?_, ?_, fun c hc => ?_, fun i hi => ?_⟩
  · rw [hr.root_start, List.head?_eq_some_head hne]
    rfl
  · rw [hr.root_end, List.getLast?_eq_some_getLast hne]
    rfl
  · have hc := hr.child_lines c hc
    exact ⟨hc.1, hc.2.1⟩
  · exact List.pairwise_iff_getElem.1 hr.ordered i (i + 1) (by omega) hi (by omega)

-- a line that is no escape directive
theorem parseLine_no_directive {line : List Char} {d : Directive}
    (hdir : d.lookingForDirectives = false ∨ escapeCommand (line.map Char.toLower) = none) :
    (if d.lookingForDirectives then escapeCommand (line.map Char.toLower) else none) = none := by
  rcases hdir with h | h <;> simp [h]

/-- `ParseLine` on a line that ends in the escape token: what is left of it, with no instruction. -/
theorem parseLine_continued {line rest : List Char} {d : Directive}
    (hdir : d.lookingForDirectives = false ∨ escapeCommand (line.map Char.toLower) = none)
    (hc : stripComments line ≠ [])
    (hl : lineContinuation d.escapeToken (stripComments line) = some rest) :
    parseLine dispatch line d = (.ok (rest, none), { d with lookingForDirectives := false }) := by
  unfold parseLine
  rw [parseLine_no_directive hdir]
  dsimp only
  rw [if_neg hc, hl]

/-- `ParseLine` on an instruction its line parser accepts. -/
theorem parseLine_instruction {line cmd args : List Char} {flags : List (List Char)}
    {d : Directive} {sexp : σ}
    (hdir : d.lookingForDirectives = false ∨ escapeCommand (line.map Char.toLower) = none)
    (hc : stripComments line ≠ [])
    (hl : lineContinuation d.escapeToken (stripComments line) = none)
    (hs : splitCommand (stripComments line) = (cmd, flags, args))
    (hd : dispatch cmd args { d with lookingForDirectives := false } = .ok sexp) :
    parseLine dispatch line d =
      (.ok ([], some ⟨cmd, sexp, stripComments line, flags, 0, 0⟩),
        { d with lookingForDirectives := false }) := by
  unfold parseLine
  rw [parseLine_no_directive hdir]
  dsimp only
  rw [if_neg hc, hl]
  dsimp only
  rw [hs]
  dsimp only
  rw [hd]

theorem parse_root_starts_at_first_end_line (s : σ)
    (h : dispatch "from".toList "a b".toList ⟨'\\', false, false⟩ = .ok s) :
    (parse dispatch "FROM a \\\nb\n".toList initialDirective).1 =
      .ok ⟨[⟨"from".toList, s, "FROM a b".toList, [], 1, 2⟩], 2, 2⟩ := by
  have hlines : scanLines "FROM a \\\nb\n".toList = ["FROM a \\".toList, "b".toList] := by
    decide +kernel
  -- line 1 ends in the escape token
  have h₁ : parseLine dispatch (trimLeftSpace (trimBOM "FROM a \\".toList)) initialDirective =
      (.ok ("FROM a ".toList, none), ⟨'\\', false, false⟩) :=
    parseLine_continued dispatch (.inr (by decide +kernel)) (by decide +kernel) (by decide +kernel)
  -- line 2 completes the instruction
  have h₂ : parseLine dispatch ("FROM a ".toList ++ "b".toList) ⟨'\\', false, false⟩ =
      (.ok ([], some ⟨"from".toList, s, "FROM a b".toList, [], 0, 0⟩), ⟨'\\', false, false⟩) :=
    parseLine_instruction dispatch (.inl rfl) (by decide +kernel) (by decide +kernel)
      (by decide +kernel) h
  unfold parse
  rw [hlines, scanLoop]
  simp only [↓reduceIte]
  rw [h₁]
  dsimp only
  rw [if_pos ⟨by decide, rfl⟩, continueLoop, if_neg (by decide +kernel), h₂]
  dsimp only
  rw [scanLoop]
  rfl

theorem root_start_line_of_continued_from :
    ((fun _ _ _ => .ok ()) : List Char → List Char → Directive → Except Unit Unit)
        "from".toList "a b".toList ⟨'\\', false, false⟩ = .ok () ∧
      (parse (fun _ _ _ => (.ok () : Except Unit Unit)) "FROM a \\\nb\n".toList
        initialDirective).1 = .ok ⟨[⟨"from".toList, (), "FROM a b".toList, [], 1, 2⟩], 2, 2⟩ :=
  ⟨rfl, parse_root_starts_at_first_end_line _ () rfl⟩

end Lines

end Docker.Dockerfile
