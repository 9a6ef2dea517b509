import Docker.Dockerfile.Parser

/-!
# LineParsers — `parseWords` of `builder/dockerfile/parser/line_parsers.go`

`parseWords` splits the arguments of an instruction into words at unquoted whitespace, keeping
quotes and escape tokens in the words; `ProcessWords` removes them later.  An escape token outside
single quotes takes the next character into the word with it, so a word in which every character
is escaped comes out of `parseWords` as it went in (`parseWords_escaped`).
-/

namespace Docker.Dockerfile

/-- The loop of `parseWords`, from `pos` on. -/
def parseWordsLoop (escapeToken : Char) (phase : Phase) (words : List (List Char))
    (word : List Char) (quote : Char) (blankOK : Bool) : List Char → List (List Char)
  | [] =>
    match phase with
    | .inSpaces => words
    | _ => if blankOK ∨ word ≠ [] then words ++ [word] else words
  | ch :: rest =>
    if phase = .inSpaces ∧ isSpace ch then
      parseWordsLoop escapeToken .inSpaces words word quote blankOK rest
    else
      match phase with
      | .inQuote =>
        let phase := if ch = quote then Phase.inWord else .inQuote
        -- the escape token is special except in single quotes
        if ch = escapeToken ∧ quote ≠ '\'' then
          match rest with
          | [] => parseWordsLoop escapeToken .inWord words word quote blankOK []
          | c :: rest => parseWordsLoop escapeToken phase words (word ++ [ch, c]) quote blankOK rest
        else parseWordsLoop escapeToken phase words (word ++ [ch]) quote blankOK rest
      | _ =>
        -- in a word, also one whose first character this is
        if isSpace ch then
          parseWordsLoop escapeToken .inSpaces
            (if blankOK ∨ word ≠ [] then words ++ [word] else words) [] quote false rest
        else
          let (phase, quote, blankOK) :=
            if ch = '\'' ∨ ch = '"' then (Phase.inQuote, ch, true) else (Phase.inWord, quote, blankOK)
          -- an unquoted escape token keeps the next character, even a quote, with it
          if ch = escapeToken then
            match rest with
            | [] => parseWordsLoop escapeToken phase words word quote blankOK []
            | c :: rest =>
              parseWordsLoop escapeToken phase words (word ++ [ch, c]) quote blankOK rest
          else parseWordsLoop escapeToken phase words (word ++ [ch]) quote blankOK rest

-- `parseWords(rest, d)`
def parseWords (rest : List Char) (d : Directive) : List (List Char) :=
  parseWordsLoop d.escapeToken .inSpaces [] [] '\x00' false rest

example : parseWords "a \"b c\" 'd\\\\' e\\\\ f".toList initialDirective =
    ["a".toList, "\"b c\"".toList, "'d\\\\'".toList, "e\\\\".toList, "f".toList] := by
  decide +kernel

/-- Every character of `s` behind the escape token `esc`. -/
def escapeAll (esc : Char) (s : List Char) : List Char :=
  s.flatMap (fun c => [esc, c])

@[simp] theorem escapeAll_nil (esc : Char) : escapeAll esc [] = [] := rfl

@[simp] theorem escapeAll_cons (esc c : Char) (s : List Char) :
    escapeAll esc (c :: s) = esc :: c :: escapeAll esc s := rfl

theorem escapeAll_eq_nil {esc : Char} {s : List Char} : escapeAll esc s = [] ↔ s = [] := by
  cases s <;> simp

/-- An unquoted escape token takes the next character into the word. -/
theorem parseWordsLoop_escape {esc c : Char} (hsp : isSpace esc = false) (hq : esc ≠ '\'')
    (hdq : esc ≠ '"') {phase : Phase} (hphase : phase ≠ .inQuote) (words : List (List Char))
    (word : List Char) (quote : Char) (blankOK : Bool) (rest : List Char) :
    parseWordsLoop esc phase words word quote blankOK (esc :: c :: rest) =
      parseWordsLoop esc .inWord words (word ++ [esc, c]) quote blankOK rest := by
  cases phase with
  | inQuote => exact absurd rfl hphase
  | inSpaces => simp [parseWordsLoop, hsp, hq, hdq]
  | inWord => simp [parseWordsLoop, hsp, hq, hdq]

/-- Whitespace ends a word that is not empty. -/
theorem parseWordsLoop_space {esc c : Char} (hc : isSpace c = true) (words : List (List Char))
    {word : List Char} (hword : word ≠ []) (quote : Char) (blankOK : Bool) (rest : List Char) :
    parseWordsLoop esc .inWord words word quote blankOK (c :: rest) =
      parseWordsLoop esc .inSpaces (words ++ [word]) [] quote false rest := by
  simp [parseWordsLoop, hc, hword]

theorem isSpace_space : isSpace ' ' = true := by
  decide +kernel

section Escaped

variable {esc : Char} (hsp : isSpace esc = false) (hq : esc ≠ '\'') (hdq : esc ≠ '"')
include hsp hq hdq

/-- Escaped characters go into the word pair by pair, from a word or from between words. -/
theorem parseWordsLoop_escapeAll (words : List (List Char)) (quote : Char) (blankOK : Bool)
    (s rest : List Char) (hs : s ≠ []) :
    ∀ (phase : Phase) (word : List Char), phase ≠ .inQuote →
      parseWordsLoop esc phase words word quote blankOK (escapeAll esc s ++ rest) =
        parseWordsLoop esc .inWord words (word ++ escapeAll esc s) quote blankOK rest := by
  induction s with
  | nil => exact absurd rfl hs
  | cons c s ih =>
    intro phase word hphase
    rw [escapeAll_cons, List.cons_append, List.cons_append,
      parseWordsLoop_escape hsp hq hdq hphase]
    by_cases hnil : s = []
    · subst hnil
      simp
    · rw [ih hnil .inWord _ (by decide)]
      simp

/-- Words of escaped characters, joined by single spaces, split back into the same words. -/
theorem parseWordsLoop_intercalate (ws : List (List Char)) (hws : ∀ w ∈ ws, w ≠ []) :
    ∀ (words : List (List Char)) (quote : Char),
      parseWordsLoop esc .inSpaces words [] quote false
          ([' '].intercalate (ws.map (escapeAll esc))) =
        words ++ ws.map (escapeAll esc) := by
  induction ws with
  | nil =>
    intro words quote
    simp [parseWordsLoop]
  | cons w ws ih =>
    intro words quote
    have hw : w ≠ [] := hws w (by simp)
    have hew : escapeAll esc w ≠ [] := fun h => hw (escapeAll_eq_nil.1 h)
    cases ws with
    | nil =>
      -- the last word ends with the input
      have h := parseWordsLoop_escapeAll hsp hq hdq words quote false w [] hw .inSpaces []
        (by decide)
      rw [List.append_nil, List.nil_append] at h
      simp [h, parseWordsLoop, hew]
    | cons w' ws =>
      -- a word, then the space that ends it
      rw [List.map_cons, List.map_cons, List.intercalate_cons_cons, List.append_assoc,
        parseWordsLoop_escapeAll hsp hq hdq words quote false w _ hw .inSpaces [] (by decide),
        List.nil_append, List.singleton_append,
        parseWordsLoop_space isSpace_space words hew, ← List.map_cons,
        ih (fun v hv => hws v (List.mem_cons_of_mem w hv))]
      simp

end Escaped

/-- With the default escape token, words of escaped characters joined by spaces come back. -/
theorem parseWords_escaped {d : Directive} (hd : d.escapeToken = '\\') (ws : List (List Char))
    (hws : ∀ w ∈ ws, w ≠ []) :
    parseWords ([' '].intercalate (ws.map (escapeAll '\\'))) d = ws.map (escapeAll '\\') := by
  rw [parseWords, hd]
  exact parseWordsLoop_intercalate (by decide +kernel) (by decide) (by decide) ws hws [] _

end Docker.Dockerfile
