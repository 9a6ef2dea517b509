import Docker.Dockerfile.LineParsers
import Docker.Reasoning.Fields
import Mathlib.Data.List.TakeDrop

/-!
# Shell — `ProcessWord` and `ProcessWords` of `builder/dockerfile/shell_parser.go`

`processStopOn` reads a word through a `text/scanner`, removing quotes and escapes and expanding
`$name`, `${name}`, `${name:-word}` and `${name:+word}`.  It builds two things side by side: the
processed string (`ProcessWord`) and the list of its words (`ProcessWords`), split at whitespace
that is not quoted, escaped or raw.  A `$` expansion goes into the words through a fresh scanner
(`addString`), which skips a leading byte order mark; so does the scanner over the word itself.

The mutual recursion of `processStopOn`, `processDoubleQuote` and `processDollar` is bounded by
fuel, one unit per call; a word's length plus one is always enough (`process_fuel_enough`).
`unicode.IsLetter` and `unicode.IsDigit` are the parameters `isLetter` and `isDigit`: nothing
proved here depends on them.
-/

namespace Docker.Dockerfile

open Reasoning.Fields

/-! ## 1. The word processor -/

/-- `scanner.Init` with the first `Peek`: a leading byte order mark is skipped.  The scanner is the
list of characters still to read. -/
def scannerInit : List Char → List Char
  | '\uFEFF' :: rest => rest
  | s => s

/-- `scanner.Next()`: the next character, `none` at the end. -/
def scannerNext : List Char → Option Char × List Char
  | [] => (none, [])
  | c :: rest => (some c, rest)

-- `wordsStruct`
structure WordsStruct where
  word : List Char
  words : List (List Char)
  inWord : Bool
  deriving DecidableEq, Repr

namespace WordsStruct

def addRawChar (w : WordsStruct) (ch : Char) : WordsStruct :=
  { w with word := w.word ++ [ch], inWord := true }

def addChar (w : WordsStruct) (ch : Char) : WordsStruct :=
  if isSpace ch ∧ w.inWord then
    if w.word ≠ [] then { word := [], words := w.words ++ [w.word], inWord := false } else w
  else if !isSpace ch then w.addRawChar ch
  else w

def addString (w : WordsStruct) (str : List Char) : WordsStruct :=
  (scannerInit str).foldl addChar w

def addRawString (w : WordsStruct) (str : List Char) : WordsStruct :=
  { w with word := w.word ++ str, inWord := true }

def getWords (w : WordsStruct) : List (List Char) :=
  if w.word ≠ [] then w.words ++ [w.word] else w.words

end WordsStruct

/-- `shellWord`: the word, for error messages, and the environment. -/
structure ShellWord where
  word : List Char
  envs : List (List Char)

inductive ShellError where
  | unsupportedModifier (modifier : Option Char) (word : List Char)
  | missingColon (word : List Char)
  -- the fuel of the model ran out; `process_fuel_enough` shows it never does
  | outOfFuel
  deriving DecidableEq, Repr

def ShellError.message : ShellError → String
  | .unsupportedModifier modifier word =>
    "Unsupported modifier (" ++ ((modifier.map String.singleton).getD "\uFFFD") ++
      ") in substitution: " ++ String.ofList word
  | .missingColon word => "Missing ':' in substitution: " ++ String.ofList word
  | .outOfFuel => "out of fuel"

/-- `sw.getEnv(name)`: the value of the first entry for `name`; an entry without `=` stands for
an empty value. -/
def getEnv (envs : List (List Char)) (name : List Char) : List Char :=
  match envs with
  | [] => []
  | env :: envs =>
    match env.span (· ≠ '=') with
    | (_, []) => if name = env then [] else getEnv envs name
    | (key, _ :: value) => if name ≠ key then getEnv envs name else value

/-- `processSingleQuote`, after the opening quote: everything up to the closing one. -/
def processSingleQuote : List Char → List Char × List Char
  | [] => ([], [])
  | ch :: rest =>
    if ch = '\'' then ([], rest)
    else
      let (result, rest) := processSingleQuote rest
      (ch :: result, rest)

section Process

variable (isLetter isDigit : Char → Bool)

/-- The loop of `processName`: a name of letters, digits and `_`, or a single digit. -/
def processNameLoop (name : List Char) : List Char → List Char × List Char
  | [] => (name, [])
  | ch :: rest =>
    if name = [] ∧ isDigit ch then ([ch], rest)
    else if !isLetter ch ∧ !isDigit ch ∧ ch ≠ '_' then (name, ch :: rest)
    else processNameLoop (name ++ [ch]) rest

def processName (s : List Char) : List Char × List Char :=
  processNameLoop isLetter isDigit [] s

mutual

/-- `processStopOn(stopChar)` with the string and the words built so far: both, and the input
after the stop character. -/
def processStopOn (sw : ShellWord) : Nat → Option Char → List Char → WordsStruct → List Char →
    Except ShellError ((List Char × List (List Char)) × List Char)
  | 0, _, _, _, _ => .error .outOfFuel
  | fuel + 1, stopChar, result, words, s =>
    match s with
    | [] => .ok ((result, words.getWords), [])
    | ch :: rest =>
      if stopChar = some ch then .ok ((result, words.getWords), rest)
      else if ch = '\'' then
        let (tmp, rest) := processSingleQuote rest
        processStopOn sw fuel stopChar (result ++ tmp) (words.addRawString tmp) rest
      else if ch = '"' then
        match processDoubleQuote sw fuel [] rest with
        | .error e => .error e
        | .ok (tmp, rest) =>
          processStopOn sw fuel stopChar (result ++ tmp) (words.addRawString tmp) rest
      else if ch = '$' then
        match processDollar sw fuel rest with
        | .error e => .error e
        | .ok (tmp, rest) =>
          processStopOn sw fuel stopChar (result ++ tmp) (words.addString tmp) rest
      else if ch = '\\' then
        -- `\` escapes the next character; at the end of the word it ends the loop
        match rest with
        | [] => .ok ((result, words.getWords), [])
        | c :: rest => processStopOn sw fuel stopChar (result ++ [c]) (words.addRawChar c) rest
      else processStopOn sw fuel stopChar (result ++ [ch]) (words.addChar ch) rest

/-- `processDoubleQuote`, after the opening quote. -/
def processDoubleQuote (sw : ShellWord) : Nat → List Char → List Char →
    Except ShellError (List Char × List Char)
  | 0, _, _ => .error .outOfFuel
  | fuel + 1, result, s =>
    match s with
    | [] => .ok (result, [])
    | ch :: rest =>
      if ch = '"' then .ok (result, rest)
      else if ch = '$' then
        match processDollar sw fuel rest with
        | .error e => .error e
        | .ok (tmp, rest) => processDoubleQuote sw fuel (result ++ tmp) rest
      else if ch = '\\' then
        match rest with
        -- a `\` at the end of the word is ignored
        | [] => .ok (result, [])
        | c :: rest' =>
          -- only `\"` and `\$` are escapes; any other `\` is kept
          if c = '"' ∨ c = '$' then processDoubleQuote sw fuel (result ++ [c]) rest'
          else processDoubleQuote sw fuel (result ++ ['\\']) rest
      else processDoubleQuote sw fuel (result ++ [ch]) rest

/-- `processDollar`, after the `$`. -/
def processDollar (sw : ShellWord) : Nat → List Char → Except ShellError (List Char × List Char)
  | 0, _ => .error .outOfFuel
  | fuel + 1, s =>
    match s with
    | '{' :: rest =>
      let (name, rest) := processName isLetter isDigit rest
      match rest with
      | '}' :: rest => .ok (getEnv sw.envs name, rest)
      | ':' :: rest =>
        -- the modifier is read even at the end of the word
        let (modifier, rest) := scannerNext rest
        match processStopOn sw fuel (some '}') [] ⟨[], [], false⟩ rest with
        | .error e => .error e
        | .ok ((word, _), rest) =>
          let newValue := getEnv sw.envs name
          match modifier with
          | some '+' => .ok (if newValue ≠ [] then word else newValue, rest)
          | some '-' => .ok (if newValue = [] then word else newValue, rest)
          | _ => .error (.unsupportedModifier modifier sw.word)
      | _ => .error (.missingColon sw.word)
    | s =>
      let (name, rest) := processName isLetter isDigit s
      if name = [] then .ok (['$'], rest) else .ok (getEnv sw.envs name, rest)

end

/-- `sw.process()` on a fresh scanner over `word`: the string and the words. -/
def process (word : List Char) (env : List (List Char)) :
    Except ShellError (List Char × List (List Char)) :=
  match processStopOn isLetter isDigit ⟨word, env⟩ (word.length + 1) none [] ⟨[], [], false⟩
      (scannerInit word) with
  | .error e => .error e
  | .ok (r, _) => .ok r

-- `ProcessWord(word, env)`
def processWord (word : List Char) (env : List (List Char)) : Except ShellError (List Char) :=
  (process isLetter isDigit word env).map (·.1)

-- `ProcessWords(word, env)`
def processWords (word : List Char) (env : List (List Char)) :
    Except ShellError (List (List Char)) :=
  (process isLetter isDigit word env).map (·.2)

end Process


/-! ## 2. One turn of the loop of `processStopOn` -/

/-- What one turn of the loop of `processStopOn` reads: text that goes into the words as it is
(quoted text, an escaped character), an expansion of `$` (`addString`), or a plain character
(`addChar`). -/
inductive Piece where
  | raw (text : List Char)
  | expanded (text : List Char)
  | plain (ch : Char)

/-- What the piece adds to the string. -/
def Piece.text : Piece → List Char
  | .raw text => text
  | .expanded text => text
  | .plain ch => [ch]

/-- What the piece does to the words. -/
def Piece.addTo : Piece → WordsStruct → WordsStruct
  | .raw text, w => w.addRawString text
  | .expanded text, w => w.addString text
  | .plain ch, w => w.addChar ch

section Turn

variable (isLetter isDigit : Char → Bool) (sw : ShellWord)

/-- The piece that starts with `ch`, and the input after it; `none` for a `\` that ends the
word. -/
def readPiece (fuel : Nat) (ch : Char) (rest : List Char) :
    Except ShellError (Option (Piece × List Char)) :=
  if ch = '\'' then .ok (some (.raw (processSingleQuote rest).1, (processSingleQuote rest).2))
  else if ch = '"' then
    (processDoubleQuote isLetter isDigit sw fuel [] rest).map (fun r => some (.raw r.1, r.2))
  else if ch = '$' then
    (processDollar isLetter isDigit sw fuel rest).map (fun r => some (.expanded r.1, r.2))
  else if ch = '\\' then
    match rest with
    | [] => .ok none
    | c :: rest => .ok (some (.raw [c], rest))
  else .ok (some (.plain ch, rest))

/-- One turn of the loop: the stop character, or the next piece. -/
theorem processStopOn_succ_cons (fuel : Nat) (stopChar : Option Char) (result : List Char)
    (words : WordsStruct) (ch : Char) (rest : List Char) :
    processStopOn isLetter isDigit sw (fuel + 1) stopChar result words (ch :: rest) =
      if stopChar = some ch then .ok ((result, words.getWords), rest)
      else
        match readPiece isLetter isDigit sw fuel ch rest with
        | .error e => .error e
        | .ok none => .ok ((result, words.getWords), [])
        | .ok (some (p, rest)) =>
          processStopOn isLetter isDigit sw fuel stopChar (result ++ p.text) (p.addTo words) rest := by
  rw [processStopOn.eq_def]
  dsimp only
  by_cases hstop : stopChar = some ch
  · rw [if_pos hstop, if_pos hstop]
  rw [if_neg hstop, if_neg hstop]
  unfold readPiece
  by_cases h₁ : ch = '\''
  · rw [if_pos h₁, if_pos h₁]
    rfl
  rw [if_neg h₁, if_neg h₁]
  by_cases h₂ : ch = '"'
  · rw [if_pos h₂, if_pos h₂]
    rcases processDoubleQuote isLetter isDigit sw fuel [] rest with e | ⟨tmp, rest'⟩ <;> rfl
  rw [if_neg h₂, if_neg h₂]
  by_cases h₃ : ch = '$'
  · rw [if_pos h₃, if_pos h₃]
    rcases processDollar isLetter isDigit sw fuel rest with e | ⟨tmp, rest'⟩ <;> rfl
  rw [if_neg h₃, if_neg h₃]
  by_cases h₄ : ch = '\\'
  · rw [if_pos h₄, if_pos h₄]
    cases rest <;> rfl
  rw [if_neg h₄, if_neg h₄]
  rfl

end Turn

/-! ## 3. Fuel -/

theorem processSingleQuote_suffix (s : List Char) : (processSingleQuote s).2 <:+ s := by
  induction s with
  | nil => exact List.suffix_refl []
  | cons ch rest ih =>
    rw [processSingleQuote]
    by_cases h : ch = '\''
    · rw [if_pos h]
      exact List.suffix_cons ch rest
    · rw [if_neg h]
      exact ih.trans (List.suffix_cons ch rest)

theorem scannerNext_suffix (s : List Char) : (scannerNext s).2 <:+ s := by
  cases s with
  | nil => exact List.suffix_refl []
  | cons c rest => exact List.suffix_cons c rest

section Fuel

variable (isLetter isDigit : Char → Bool) (sw : ShellWord)

theorem processNameLoop_suffix (name s : List Char) :
    (processNameLoop isLetter isDigit name s).2 <:+ s := by
  induction s generalizing name with
  | nil => exact List.suffix_refl []
  | cons ch rest ih =>
    rw [processNameLoop]
    by_cases h₁ : name = [] ∧ isDigit ch = true
    · rw [if_pos h₁]
      exact List.suffix_cons ch rest
    rw [if_neg h₁]
    by_cases h₂ : (!isLetter ch) = true ∧ (!isDigit ch) = true ∧ ch ≠ '_'
    · simp only [if_pos h₂]
      exact List.suffix_refl _
    · rw [if_neg h₂]
      exact (ih _).trans (List.suffix_cons ch rest)

/-- A call that did not run out of fuel, and left a suffix of its input to read. -/
def Reads {α : Type} (s : List Char) (r : Except ShellError (α × List Char)) : Prop :=
  r ≠ .error .outOfFuel ∧ ∀ a rest, r = .ok (a, rest) → rest <:+ s

theorem Reads.ok {α : Type} {s rest : List Char} (a : α) (h : rest <:+ s) :
    Reads s (.ok (a, rest)) :=
  ⟨fun h => (by cases h), fun _ _ h' => by cases h'; exact h⟩

theorem Reads.error {α : Type} {s : List Char} {e : ShellError} (he : e ≠ .outOfFuel) :
    Reads (α := α) s (.error e) :=
  ⟨fun h => he (by cases h; rfl), fun _ _ h => (by cases h)⟩

theorem Reads.mono {α : Type} {s s' : List Char} {r : Except ShellError (α × List Char)}
    (h : Reads s' r) (hs : s' <:+ s) : Reads s r :=
  ⟨h.1, fun a rest hr => (h.2 a rest hr).trans hs⟩

/-- A piece read with enough fuel for the nested calls. -/
theorem readPiece_reads {fuel : Nat} {ch : Char} {rest : List Char}
    (hdq : Reads rest (processDoubleQuote isLetter isDigit sw fuel [] rest))
    (hdol : Reads rest (processDollar isLetter isDigit sw fuel rest)) :
    readPiece isLetter isDigit sw fuel ch rest ≠ .error .outOfFuel ∧
      ∀ p rest', readPiece isLetter isDigit sw fuel ch rest = .ok (some (p, rest')) →
        rest' <:+ rest := by
  unfold readPiece
  by_cases h₁ : ch = '\''
  · rw [if_pos h₁]
    exact ⟨fun h => (by cases h), fun _ _ h => by cases h; exact processSingleQuote_suffix rest⟩
  rw [if_neg h₁]
  by_cases h₂ : ch = '"'
  · rw [if_pos h₂]
    rcases hq : processDoubleQuote isLetter isDigit sw fuel [] rest with e | ⟨tmp, rest'⟩
    · rw [hq] at hdq
      exact ⟨fun h => hdq.1 (by cases h; rfl), fun _ _ h => (by cases h)⟩
    · exact ⟨fun h => (by cases h), fun _ _ h => by cases h; exact hdq.2 _ _ hq⟩
  rw [if_neg h₂]
  by_cases h₃ : ch = '$'
  · rw [if_pos h₃]
    rcases hd : processDollar isLetter isDigit sw fuel rest with e | ⟨tmp, rest'⟩
    · rw [hd] at hdol
      exact ⟨fun h => hdol.1 (by cases h; rfl), fun _ _ h => (by cases h)⟩
    · exact ⟨fun h => (by cases h), fun _ _ h => by cases h; exact hdol.2 _ _ hd⟩
  rw [if_neg h₃]
  by_cases h₄ : ch = '\\'
  · rw [if_pos h₄]
    cases rest with
    | nil => exact ⟨fun h => (by cases h), fun _ _ h => (by cases h)⟩
    | cons c rest =>
      exact ⟨fun h => (by cases h), fun _ _ h => by cases h; exact List.suffix_cons c rest⟩
  rw [if_neg h₄]
  exact ⟨fun h => (by cases h), fun _ _ h => by cases h; exact List.suffix_refl rest⟩

/-- Fuel one more than the input is enough, for each of the three functions: by induction on
the fuel, as every call reads at least one character before it calls again. -/
theorem fuel_enough (n : Nat) :
    (∀ stopChar result words s, s.length < n →
      Reads s (processStopOn isLetter isDigit sw n stopChar result words s)) ∧
    (∀ result s, s.length < n → Reads s (processDoubleQuote isLetter isDigit sw n result s)) ∧
    (∀ s, s.length < n → Reads s (processDollar isLetter isDigit sw n s)) := by
  induction n with
  | zero => exact ⟨fun _ _ _ _ h => absurd h (Nat.not_lt_zero _),
      fun _ _ h => absurd h (Nat.not_lt_zero _), fun _ h => absurd h (Nat.not_lt_zero _)⟩
  | succ n ih =>
    obtain ⟨ihStop, ihQuote, ihDollar⟩ := ih
    refine ⟨?_, ?_, ?_⟩
    · intro stopChar result words s hs
      cases s with
      | nil =>
        rw [processStopOn.eq_def]
        exact Reads.ok _ (List.suffix_refl [])
      | cons ch rest =>
        have hrest : rest.length < n := by simpa using hs
        rw [processStopOn_succ_cons]
        by_cases hstop : stopChar = some ch
        · rw [if_pos hstop]
          exact Reads.ok _ (List.suffix_cons ch rest)
        rw [if_neg hstop]
        obtain ⟨hnot, hsuffix⟩ := @readPiece_reads isLetter isDigit sw n ch rest
          (ihQuote [] rest hrest) (ihDollar rest hrest)
        rcases hp : readPiece isLetter isDigit sw n ch rest with e | _ | ⟨p, rest'⟩
        · rw [hp] at hnot
          exact Reads.error (fun he => hnot (by rw [he]))
        · exact Reads.ok _ List.nil_suffix
        · -- the loop goes on after the piece
          have hsuf := hsuffix p rest' hp
          exact (ihStop _ _ _ rest' (Nat.lt_of_le_of_lt hsuf.length_le hrest)).mono
            (hsuf.trans (List.suffix_cons ch rest))
    · intro result s hs
      cases s with
      | nil =>
        rw [processDoubleQuote.eq_def]
        exact Reads.ok _ (List.suffix_refl [])
      | cons ch rest =>
        have hrest : rest.length < n := by simpa using hs
        have hcons : rest <:+ ch :: rest := List.suffix_cons ch rest
        rw [processDoubleQuote.eq_def]
        dsimp only
        by_cases h₁ : ch = '"'
        · rw [if_pos h₁]
          exact Reads.ok _ hcons
        rw [if_neg h₁]
        by_cases h₂ : ch = '$'
        · rw [if_pos h₂]
          have hd := ihDollar rest hrest
          rcases hr : processDollar isLetter isDigit sw n rest with e | ⟨tmp, rest'⟩
          · rw [hr] at hd
            exact Reads.error (fun he => hd.1 (by rw [he]))
          · have hsuf := hd.2 _ _ hr
            exact (ihQuote _ rest' (Nat.lt_of_le_of_lt hsuf.length_le hrest)).mono (hsuf.trans hcons)
        rw [if_neg h₂]
        by_cases h₃ : ch = '\\'
        · rw [if_pos h₃]
          cases rest with
          | nil => exact Reads.ok _ List.nil_suffix
          | cons c rest' =>
            dsimp only
            have hsuf : rest' <:+ ch :: c :: rest' := (List.suffix_cons c rest').trans hcons
            by_cases h₄ : c = '"' ∨ c = '$'
            · rw [if_pos h₄]
              have hlen : rest'.length < n := by
                simp only [List.length_cons] at hrest
                omega
              exact (ihQuote _ rest' hlen).mono hsuf
            · rw [if_neg h₄]
              exact (ihQuote _ (c :: rest') hrest).mono hcons
        rw [if_neg h₃]
        exact (ihQuote _ rest hrest).mono hcons
    · intro s hs
      rw [processDollar.eq_def]
      dsimp only
      split
      · -- `${`: a name, then `}` or `:` and a modifier
        rename_i rest
        have hrest : rest.length < n := by simpa using hs
        have hname : (processName isLetter isDigit rest).2 <:+ rest :=
          processNameLoop_suffix isLetter isDigit [] rest
        generalize processName isLetter isDigit rest = p at hname ⊢
        obtain ⟨name, rest₁⟩ := p
        dsimp only at hname ⊢
        have hcons : rest₁ <:+ '{' :: rest := hname.trans (List.suffix_cons '{' rest)
        split
        · rename_i r
          exact Reads.ok _ ((List.suffix_cons '}' r).trans hcons)
        · rename_i r
          have hnext := scannerNext_suffix r
          generalize scannerNext r = mp at hnext ⊢
          obtain ⟨modifier, r'⟩ := mp
          dsimp only at hnext ⊢
          have hr' : r' <:+ '{' :: rest := (hnext.trans (List.suffix_cons ':' r)).trans hcons
          have hlen : r'.length < n := by
            have h₁ := hnext.length_le
            have h₂ := hname.length_le
            simp only [List.length_cons] at h₂
            omega
          have hstop := ihStop (some '}') [] ⟨[], [], false⟩ r' hlen
          rcases hres : processStopOn isLetter isDigit sw n (some '}') [] ⟨[], [], false⟩ r' with
            e | ⟨⟨word, ws⟩, rest''⟩
          · rw [hres] at hstop
            exact Reads.error (fun he => hstop.1 (by rw [he]))
          · have hsuf := (hstop.2 _ _ hres).trans hr'
            dsimp only
            split
            · exact Reads.ok _ hsuf
            · exact Reads.ok _ hsuf
            · exact Reads.error (fun h => by cases h)
        · exact Reads.error (fun h => by cases h)
      · -- `$name`, or a `$` alone
        have hname : (processName isLetter isDigit s).2 <:+ s :=
          processNameLoop_suffix isLetter isDigit [] s
        split
        · exact Reads.ok _ hname
        · exact Reads.ok _ hname

end Fuel

theorem scannerInit_suffix (s : List Char) : scannerInit s <:+ s := by
  unfold scannerInit
  split
  · exact List.suffix_cons _ _
  · exact List.suffix_refl _

theorem process_fuel_enough (isLetter isDigit : Char → Bool) (word : List Char)
    (env : List (List Char)) : process isLetter isDigit word env ≠ .error .outOfFuel := by
  have hlen : (scannerInit word).length < word.length + 1 :=
    Nat.lt_succ_of_le (scannerInit_suffix word).length_le
  have h := (fuel_enough isLetter isDigit ⟨word, env⟩ (word.length + 1)).1 none []
    ⟨[], [], false⟩ (scannerInit word) hlen
  unfold process
  rcases hr : processStopOn isLetter isDigit ⟨word, env⟩ (word.length + 1) none []
    ⟨[], [], false⟩ (scannerInit word) with e | ⟨r, rest⟩
  · rw [hr] at h
    exact fun he => h.1 (by cases he; rfl)
  · exact fun h => by cases h

/-! ## 4. Escaped words -/

section Escaped

variable (isLetter isDigit : Char → Bool) (sw : ShellWord)

theorem readPiece_escape (fuel : Nat) (c : Char) (rest : List Char) :
    readPiece isLetter isDigit sw fuel '\\' (c :: rest) = .ok (some (.raw [c], rest)) := by
  unfold readPiece
  rw [if_neg (by decide), if_neg (by decide), if_neg (by decide), if_pos rfl]

/-- An escaped character is a raw character: the loop takes escaped text one character at a
time, with one unit of fuel each. -/
theorem processStopOn_escapeAll {stopChar : Option Char} (hstop : stopChar ≠ some '\\')
    (s rest : List Char) :
    ∀ (fuel : Nat) (result : List Char) (words : WordsStruct),
      processStopOn isLetter isDigit sw (fuel + s.length) stopChar result words
          (escapeAll '\\' s ++ rest) =
        processStopOn isLetter isDigit sw fuel stopChar (result ++ s)
          (s.foldl WordsStruct.addRawChar words) rest := by
  induction s with
  | nil =>
    intro fuel result words
    simp
  | cons c s ih =>
    intro fuel result words
    rw [escapeAll_cons, List.cons_append, List.cons_append, List.length_cons, ← Nat.add_assoc,
      processStopOn_succ_cons, if_neg hstop, readPiece_escape]
    dsimp only
    rw [ih]
    simp only [Piece.text, Piece.addTo, List.append_assoc, List.singleton_append, List.foldl_cons]
    rfl

theorem foldl_addRawChar (s : List Char) :
    ∀ w : WordsStruct, (s.foldl WordsStruct.addRawChar w).word = w.word ++ s ∧
      (s.foldl WordsStruct.addRawChar w).words = w.words := by
  induction s with
  | nil => simp
  | cons c s ih =>
    intro w
    obtain ⟨h₁, h₂⟩ := ih (w.addRawChar c)
    rw [List.foldl_cons, h₁, h₂]
    simp [WordsStruct.addRawChar]

/-- A word of escaped characters is processed into its characters, one word of them. -/
theorem process_escapeAll (s : List Char) (env : List (List Char)) :
    process isLetter isDigit (escapeAll '\\' s) env = .ok (s, if s = [] then [] else [s]) := by
  have hinit : scannerInit (escapeAll '\\' s) = escapeAll '\\' s := by
    cases s <;> rfl
  have hlen : (escapeAll '\\' s).length + 1 = (s.length + 1) + s.length := by
    simp only [escapeAll, List.length_flatMap, List.length_cons, List.length_nil]
    simp
    omega
  have hnone : (none : Option Char) ≠ some '\\' := fun h => by cases h
  have hrun := processStopOn_escapeAll isLetter isDigit ⟨escapeAll '\\' s, env⟩ hnone s []
    (s.length + 1) [] ⟨[], [], false⟩
  rw [List.append_nil] at hrun
  obtain ⟨hword, hwords⟩ := foldl_addRawChar s ⟨[], [], false⟩
  unfold process
  rw [hinit, hlen, hrun, processStopOn.eq_def]
  dsimp only
  simp only [WordsStruct.getWords, hword, hwords, List.nil_append]
  by_cases hs : s = []
  · simp [hs]
  · simp [hs]

theorem escaped_words_round_trip :
    (∀ d : Directive, d.escapeToken = '\\' → ∀ ws : List (List Char), (∀ w ∈ ws, w ≠ []) →
      parseWords ([' '].intercalate (ws.map (escapeAll '\\'))) d = ws.map (escapeAll '\\')) ∧
    ∀ (s : List Char) (env : List (List Char)),
      processWord isLetter isDigit (escapeAll '\\' s) env = .ok s ∧
        (s ≠ [] → processWords isLetter isDigit (escapeAll '\\' s) env = .ok [s]) := by
  refine ⟨fun d hd ws hws => parseWords_escaped hd ws hws, fun s env => ⟨?_, fun hs => ?_⟩⟩
  · rw [processWord, process_escapeAll]
    rfl
  · rw [processWords, process_escapeAll, if_neg hs]
    rfl

end Escaped

theorem escaped_words_round_trip_a_b :
    initialDirective.escapeToken = '\\' ∧ (∀ w ∈ ["a b".toList], w ≠ []) ∧
      parseWords ([' '].intercalate (["a b".toList].map (escapeAll '\\'))) initialDirective =
        ["a b".toList].map (escapeAll '\\') ∧
      "a b".toList ≠ [] ∧
      processWords Char.isAlpha Char.isDigit (escapeAll '\\' "a b".toList) [] = .ok ["a b".toList] :=
  ⟨rfl, by decide, (escaped_words_round_trip Char.isAlpha Char.isDigit).1 _ rfl _ (by decide),
    by decide, ((escaped_words_round_trip Char.isAlpha Char.isDigit).2 _ []).2 (by decide)⟩

/-! ## 5. Characters of the results -/

theorem mem_getEnv {c : Char} {envs : List (List Char)} {name : List Char}
    (h : c ∈ getEnv envs name) : ∃ e ∈ envs, c ∈ e := by
  induction envs with
  | nil => simp [getEnv] at h
  | cons env envs ih =>
    rw [getEnv] at h
    have hspan := List.span_eq_takeWhile_dropWhile (fun c => decide (c ≠ '=')) env
    split at h
    · split at h
      · simp at h
      · obtain ⟨e, he, hc⟩ := ih h
        exact ⟨e, List.mem_cons_of_mem env he, hc⟩
    · rename_i key eq value hkv
      split at h
      · obtain ⟨e, he, hc⟩ := ih h
        exact ⟨e, List.mem_cons_of_mem env he, hc⟩
      · -- the value is the end of the entry
        refine ⟨env, List.mem_cons_self, ?_⟩
        rw [hspan] at hkv
        have hdrop : List.dropWhile (fun c => decide (c ≠ '=')) env = eq :: value := by
          simpa using congrArg Prod.snd hkv
        have hsuf : (eq :: value) <:+ env := hdrop ▸ List.dropWhile_suffix _
        exact hsuf.subset (List.mem_cons_of_mem eq h)

theorem mem_processSingleQuote {c : Char} {s : List Char} (h : c ∈ (processSingleQuote s).1) :
    c ∈ s := by
  induction s with
  | nil => simp [processSingleQuote] at h
  | cons ch rest ih =>
    rw [processSingleQuote] at h
    split at h
    · simp at h
    · rcases List.mem_cons.1 h with rfl | h
      · exact List.mem_cons_self
      · exact List.mem_cons_of_mem ch (ih h)

theorem not_mem_getEnv {x : Char} {envs : List (List Char)} (henv : ∀ e ∈ envs, x ∉ e)
    (name : List Char) : x ∉ getEnv envs name := by
  intro h
  obtain ⟨e, he, hxe⟩ := mem_getEnv h
  exact henv e he hxe

section Chars

variable (isLetter isDigit : Char → Bool) (sw : ShellWord) {x : Char} (hx : x ≠ '$')
  (henv : ∀ e ∈ sw.envs, x ∉ e)
include hx henv

omit hx henv in
/-- A piece adds no character that is in neither its input nor the environment, given that the
nested calls do not. -/
theorem readPiece_not_mem {fuel : Nat} {ch : Char} {rest : List Char} (hs : x ∉ ch :: rest)
    (hdq : ∀ r rest', processDoubleQuote isLetter isDigit sw fuel [] rest = .ok (r, rest') → x ∉ r)
    (hdol : ∀ r rest', processDollar isLetter isDigit sw fuel rest = .ok (r, rest') → x ∉ r)
    {p : Piece} {rest' : List Char}
    (h : readPiece isLetter isDigit sw fuel ch rest = .ok (some (p, rest'))) : x ∉ p.text := by
  unfold readPiece at h
  have hrest : x ∉ rest := fun h => hs (List.mem_cons_of_mem ch h)
  split at h
  · cases h
    exact fun h => hrest (mem_processSingleQuote h)
  split at h
  · rcases hq : processDoubleQuote isLetter isDigit sw fuel [] rest with e | ⟨r, rest''⟩
    · rw [hq] at h
      cases h
    · rw [hq] at h
      cases h
      exact hdq r rest'' hq
  split at h
  · rcases hd : processDollar isLetter isDigit sw fuel rest with e | ⟨r, rest''⟩
    · rw [hd] at h
      cases h
    · rw [hd] at h
      cases h
      exact hdol r rest'' hd
  split at h
  · cases rest with
    | nil => cases h
    | cons c rest =>
      cases h
      exact fun h => hrest (List.mem_cons.2 (.inl (by simpa [Piece.text] using h)))
  · cases h
    exact fun h => hs (List.mem_cons.2 (.inl (by simpa [Piece.text] using h)))

/-- With enough fuel, a character other than `$` that is in neither the input nor the environment
is in no result; by induction on the fuel, as `fuel_enough`, whose suffixes it uses. -/
theorem not_mem_results (n : Nat) :
    (∀ stopChar result words s, s.length < n → x ∉ s → x ∉ result → ∀ r ws rest,
      processStopOn isLetter isDigit sw n stopChar result words s = .ok ((r, ws), rest) →
        x ∉ r) ∧
    (∀ result s, s.length < n → x ∉ s → x ∉ result → ∀ r rest,
      processDoubleQuote isLetter isDigit sw n result s = .ok (r, rest) → x ∉ r) ∧
    (∀ s, s.length < n → x ∉ s → ∀ r rest,
      processDollar isLetter isDigit sw n s = .ok (r, rest) → x ∉ r) := by
  induction n with
  | zero => exact ⟨fun _ _ _ _ h => absurd h (Nat.not_lt_zero _),
      fun _ _ h => absurd h (Nat.not_lt_zero _), fun _ h => absurd h (Nat.not_lt_zero _)⟩
  | succ n ih =>
    obtain ⟨ihStop, ihQuote, ihDollar⟩ := ih
    obtain ⟨-, fQuote, fDollar⟩ := fuel_enough isLetter isDigit sw n
    refine ⟨?_, ?_, ?_⟩
    · intro stopChar result words s hs hxs hxr r ws rest h
      cases s with
      | nil =>
        rw [processStopOn.eq_def] at h
        cases h
        exact hxr
      | cons ch rest₀ =>
        have hrest : rest₀.length < n := by simpa using hs
        have hxrest : x ∉ rest₀ := fun h => hxs (List.mem_cons_of_mem ch h)
        rw [processStopOn_succ_cons] at h
        split at h
        · cases h
          exact hxr
        rcases hp : readPiece isLetter isDigit sw n ch rest₀ with e | _ | ⟨p, rest'⟩
        · rw [hp] at h
          cases h
        · rw [hp] at h
          cases h
          exact hxr
        · rw [hp] at h
          dsimp only at h
          have hsuf := (readPiece_reads isLetter isDigit sw (fQuote [] rest₀ hrest)
            (fDollar rest₀ hrest)).2 p rest' hp
          have hxp := readPiece_not_mem isLetter isDigit sw hxs
            (fun r' rest'' hq => ihQuote [] rest₀ hrest hxrest List.not_mem_nil r' rest'' hq)
            (fun r' rest'' hd => ihDollar rest₀ hrest hxrest r' rest'' hd) hp
          exact ihStop _ _ _ rest' (Nat.lt_of_le_of_lt hsuf.length_le hrest)
            (fun h => hxrest (hsuf.subset h)) (by simp [hxr, hxp]) r ws rest h
    · intro result s hs hxs hxr r rest h
      cases s with
      | nil =>
        rw [processDoubleQuote.eq_def] at h
        cases h
        exact hxr
      | cons ch rest₀ =>
        have hrest : rest₀.length < n := by simpa using hs
        obtain ⟨hxch, hxrest⟩ : x ≠ ch ∧ x ∉ rest₀ := by simpa using hxs
        rw [processDoubleQuote.eq_def] at h
        dsimp only at h
        split at h
        · cases h
          exact hxr
        split at h
        · -- an expansion inside the quotes
          rcases hd : processDollar isLetter isDigit sw n rest₀ with e | ⟨tmp, rest'⟩
          · rw [hd] at h
            cases h
          · rw [hd] at h
            dsimp only at h
            have hsuf := (fDollar rest₀ hrest).2 _ _ hd
            have hxtmp := ihDollar rest₀ hrest hxrest _ _ hd
            exact ihQuote _ rest' (Nat.lt_of_le_of_lt hsuf.length_le hrest)
              (fun h => hxrest (hsuf.subset h)) (by simp [hxr, hxtmp]) r rest h
        rename_i hdollar
        split at h
        · rename_i hback
          cases rest₀ with
          | nil =>
            cases h
            exact hxr
          | cons c rest' =>
            obtain ⟨hxc, hxrest'⟩ : x ≠ c ∧ x ∉ rest' := by simpa using hxrest
            dsimp only at h
            split at h
            · exact ihQuote _ rest' (by simp at hrest; omega) hxrest' (by simp [hxr, hxc]) r rest h
            · exact ihQuote _ (c :: rest') hrest hxrest (by subst hback; simp [hxr, hxch]) r rest h
        · exact ihQuote _ rest₀ hrest hxrest (by simp [hxr, hxch]) r rest h
    · intro s hs hxs r rest h
      rw [processDollar.eq_def] at h
      dsimp only at h
      split at h
      · -- `${`
        rename_i rest₀
        have hrest : rest₀.length < n := by simpa using hs
        have hname : (processName isLetter isDigit rest₀).2 <:+ rest₀ :=
          processNameLoop_suffix isLetter isDigit [] rest₀
        generalize processName isLetter isDigit rest₀ = p at hname h
        obtain ⟨name, rest₁⟩ := p
        dsimp only at hname h
        split at h
        · cases h
          exact not_mem_getEnv henv name
        · rename_i r₁
          have hnext := scannerNext_suffix r₁
          generalize scannerNext r₁ = mp at hnext h
          obtain ⟨modifier, r'⟩ := mp
          dsimp only at hnext h
          have hsuf : r' <:+ rest₀ := (hnext.trans (List.suffix_cons ':' r₁)).trans hname
          have hlen : r'.length < n := by
            have h₁ := hnext.length_le
            have h₂ := hname.length_le
            simp only [List.length_cons] at h₂
            omega
          rcases hres : processStopOn isLetter isDigit sw n (some '}') [] ⟨[], [], false⟩ r' with
            e | ⟨⟨word, ws⟩, rest''⟩
          · rw [hres] at h
            cases h
          · rw [hres] at h
            dsimp only at h
            have hword := ihStop (some '}') [] _ r' hlen
              (fun h => hxs (List.mem_cons_of_mem _ (hsuf.subset h))) List.not_mem_nil word ws
              rest'' hres
            have hval := not_mem_getEnv henv name
            split at h
            · cases h
              split <;> assumption
            · cases h
              split <;> assumption
            · cases h
        · cases h
      · -- `$name`, or a `$` alone
        split at h
        · cases h
          simpa using hx
        · cases h
          exact not_mem_getEnv henv _

end Chars

/-! ## 6. The string and the words -/

namespace WordsStruct

/-- Everything put into the words, in order. -/
def flat (w : WordsStruct) : List Char :=
  w.words.flatten ++ w.word

theorem flatten_getWords (w : WordsStruct) : w.getWords.flatten = w.flat := by
  unfold getWords flat
  by_cases h : w.word = []
  · simp [h]
  · simp [h]

theorem flat_addRawString (w : WordsStruct) (text : List Char) :
    (w.addRawString text).flat = w.flat ++ text := by
  simp [addRawString, flat]

/-- `addChar` drops whitespace and keeps anything else. -/
theorem flat_addChar (w : WordsStruct) (c : Char) :
    (w.addChar c).flat = w.flat ++ (if isSpace c then [] else [c]) := by
  unfold addChar
  by_cases hc : isSpace c = true
  · by_cases hin : w.inWord = true
    · by_cases hw : w.word = []
      · simp [hc, hin, hw]
      · simp [hc, hin, hw, flat]
    · simp [hc, hin]
  · simp [hc, addRawChar, flat]

theorem flat_foldl_addChar (s : List Char) :
    ∀ w : WordsStruct, (s.foldl addChar w).flat = w.flat ++ s.filter (fun c => !isSpace c) := by
  induction s with
  | nil => simp
  | cons c s ih =>
    intro w
    rw [List.foldl_cons, ih, flat_addChar, List.filter_cons]
    by_cases hc : isSpace c = true <;> simp [hc]

end WordsStruct

theorem scannerInit_of_not_mem {s : List Char} (h : '\uFEFF' ∉ s) : scannerInit s = s := by
  cases s with
  | nil => rfl
  | cons c s =>
    have hc : c ≠ '\uFEFF' := fun hc => h (hc ▸ List.mem_cons_self)
    unfold scannerInit
    split
    · rename_i rest heq
      cases heq
      exact absurd rfl hc
    · rfl

/-- A piece keeps the words a copy of the string with some whitespace dropped, unless it is an
expansion that starts with a byte order mark. -/
theorem dropsSome_piece {result : List Char} {w : WordsStruct}
    (h : DropsSome isSpace result w.flat) (p : Piece)
    (hp : ∀ t, p = .expanded t → '\uFEFF' ∉ t) :
    DropsSome isSpace (result ++ p.text) (p.addTo w).flat := by
  cases p with
  | raw t =>
    rw [Piece.addTo, WordsStruct.flat_addRawString]
    exact h.append (DropsSome.refl _ t)
  | expanded t =>
    rw [Piece.addTo, WordsStruct.addString, scannerInit_of_not_mem (hp t rfl),
      WordsStruct.flat_foldl_addChar]
    exact h.append (dropsSome_filter _ t)
  | plain c =>
    rw [Piece.addTo, WordsStruct.flat_addChar]
    have hc := dropsSome_filter isSpace [c]
    rw [List.filter_singleton] at hc
    by_cases hs : isSpace c = true
    · simp only [hs, Bool.not_true, cond_false, if_true] at hc ⊢
      exact h.append hc
    · simp only [hs, Bool.not_false, cond_true, if_false, Bool.false_eq_true] at hc ⊢
      exact h.append hc

section Agree

variable (isLetter isDigit : Char → Bool) (sw : ShellWord)

theorem readPiece_expanded {fuel : Nat} {ch : Char} {rest rest' t : List Char}
    (h : readPiece isLetter isDigit sw fuel ch rest = .ok (some (.expanded t, rest'))) :
    processDollar isLetter isDigit sw fuel rest = .ok (t, rest') := by
  unfold readPiece at h
  split at h
  · cases h
  split at h
  · rcases hq : processDoubleQuote isLetter isDigit sw fuel [] rest with e | ⟨r, r'⟩ <;>
      rw [hq] at h <;> cases h
  split at h
  · rcases hd : processDollar isLetter isDigit sw fuel rest with e | ⟨r, r'⟩
    · rw [hd] at h
      cases h
    · rw [hd] at h
      cases h
      rfl
  split at h
  · cases rest with
    | nil => cases h
    | cons c rest => cases h
  · cases h

/-- A property of the string and the words that every piece keeps holds of what the loop
returns, if it holds at the start: by induction on the fuel, one piece at a time.  `P` is what
the input still to read satisfies; it passes to suffixes. -/
theorem processStopOn_inv (P : List Char → Prop) (Inv : List Char → WordsStruct → Prop)
    (hP : ∀ s s', s' <:+ s → P s → P s')
    (hstep : ∀ fuel ch rest p rest' result words, rest.length < fuel → P (ch :: rest) →
      Inv result words →
      readPiece isLetter isDigit sw fuel ch rest = .ok (some (p, rest')) →
        Inv (result ++ p.text) (p.addTo words))
    (n : Nat) :
    ∀ stopChar result words s, s.length < n → P s → Inv result words → ∀ r ws rest,
      processStopOn isLetter isDigit sw n stopChar result words s = .ok ((r, ws), rest) →
        ∃ words', Inv r words' ∧ ws = words'.getWords := by
  induction n with
  | zero => exact fun _ _ _ _ h => absurd h (Nat.not_lt_zero _)
  | succ n ih =>
    obtain ⟨-, fQuote, fDollar⟩ := fuel_enough isLetter isDigit sw n
    intro stopChar result words s hs hPs hinv r ws rest h
    cases s with
    | nil =>
      rw [processStopOn.eq_def] at h
      cases h
      exact ⟨words, hinv, rfl⟩
    | cons ch rest₀ =>
      have hrest : rest₀.length < n := by simpa using hs
      rw [processStopOn_succ_cons] at h
      split at h
      · cases h
        exact ⟨words, hinv, rfl⟩
      rcases hp : readPiece isLetter isDigit sw n ch rest₀ with e | _ | ⟨p, rest'⟩
      · rw [hp] at h
        cases h
      · rw [hp] at h
        cases h
        exact ⟨words, hinv, rfl⟩
      · rw [hp] at h
        dsimp only at h
        have hsuf := (readPiece_reads isLetter isDigit sw (fQuote [] rest₀ hrest)
          (fDollar rest₀ hrest)).2 p rest' hp
        exact ih _ _ _ rest' (Nat.lt_of_le_of_lt hsuf.length_le hrest)
          (hP _ _ (hsuf.trans (List.suffix_cons ch rest₀)) hPs)
          (hstep n ch rest₀ p rest' result words hrest hPs hinv hp) r ws rest h

/-- An expansion read from an input and an environment with no byte order mark has none. -/
theorem readPiece_expanded_not_mem (hbom : ∀ e ∈ sw.envs, '\uFEFF' ∉ e) {fuel : Nat}
    {ch : Char} {rest rest' : List Char} {p : Piece} (hrest : rest.length < fuel)
    (hs : '\uFEFF' ∉ ch :: rest)
    (hp : readPiece isLetter isDigit sw fuel ch rest = .ok (some (p, rest'))) :
    ∀ t, p = .expanded t → '\uFEFF' ∉ t := by
  rintro t rfl
  exact (not_mem_results isLetter isDigit sw (by decide) hbom fuel).2.2 rest hrest
    (fun h => hs (List.mem_cons_of_mem ch h)) t rest' (readPiece_expanded isLetter isDigit sw hp)

/-- With no byte order mark in the input or the environment, the words are the string with
some whitespace dropped. -/
theorem processStopOn_dropsSome (hbom : ∀ e ∈ sw.envs, '\uFEFF' ∉ e) (n : Nat)
    (stopChar : Option Char) (s : List Char) (hs : s.length < n) (hbs : '\uFEFF' ∉ s)
    (r : List Char) (ws : List (List Char)) (rest : List Char)
    (h : processStopOn isLetter isDigit sw n stopChar [] ⟨[], [], false⟩ s = .ok ((r, ws), rest)) :
    DropsSome isSpace r ws.flatten := by
  obtain ⟨w, hw, rfl⟩ := processStopOn_inv isLetter isDigit sw (fun s => '\uFEFF' ∉ s)
    (fun r w => DropsSome isSpace r w.flat)
    (fun _ _ hsuf hs h => hs (hsuf.subset h))
    (fun _ _ _ p _ _ _ hrest hs hinv hp =>
      dropsSome_piece hinv p (readPiece_expanded_not_mem isLetter isDigit sw hbom hrest hs hp))
    n stopChar [] ⟨[], [], false⟩ s hs hbs (DropsSome.refl _ []) r ws rest h
  rwa [WordsStruct.flatten_getWords]

/-- The words are the fields of the string read so far: a reader of fields (`Acc`) that has read
the string holds the finished words and the current one, and `inWord` says whether there is a
current one. -/
def Tracks (w : WordsStruct) (result : List Char) : Prop :=
  w.inWord = !w.word.isEmpty ∧
    (⟨w.words, w.word⟩ : Acc Char) = result.foldl (Acc.push isSpace) ⟨[], []⟩

theorem tracks_empty : Tracks ⟨[], [], false⟩ [] :=
  ⟨rfl, rfl⟩

/-- `addChar` is the reader of fields reading one character. -/
theorem Tracks.addChar {w : WordsStruct} {result : List Char} (h : Tracks w result) (c : Char) :
    Tracks (w.addChar c) (result ++ [c]) := by
  obtain ⟨hin, hacc⟩ := h
  rw [Tracks, List.foldl_append, ← hacc, List.foldl_cons, List.foldl_nil]
  unfold WordsStruct.addChar Acc.push
  by_cases hc : isSpace c = true
  · by_cases hw : w.word = []
    · simp [hc, hin, hw]
    · simp [hc, hin, hw]
  · simp [hc, WordsStruct.addRawChar]

theorem Tracks.foldl_addChar (t : List Char) :
    ∀ {w : WordsStruct} {result : List Char}, Tracks w result →
      Tracks (t.foldl WordsStruct.addChar w) (result ++ t) := by
  induction t with
  | nil =>
    intro w result h
    simpa using h
  | cons c t ih =>
    intro w result h
    rw [List.foldl_cons, ← List.singleton_append, ← List.append_assoc]
    exact ih (h.addChar c)

theorem Tracks.getWords {w : WordsStruct} {result : List Char} (h : Tracks w result) :
    w.getWords = fieldsFunc isSpace result := by
  rw [fieldsFunc_eq_foldl, ← h.2]
  unfold WordsStruct.getWords Acc.fields
  by_cases hw : w.word = [] <;> simp [hw]

theorem readPiece_not_raw {fuel : Nat} {ch : Char} {rest rest' : List Char} {p : Piece}
    (hch : ch ≠ '\'' ∧ ch ≠ '"' ∧ ch ≠ '\\')
    (hp : readPiece isLetter isDigit sw fuel ch rest = .ok (some (p, rest'))) :
    ∀ t, p ≠ .raw t := by
  intro t hraw
  subst hraw
  obtain ⟨h₁, h₂, h₄⟩ := hch
  unfold readPiece at hp
  rw [if_neg h₁, if_neg h₂] at hp
  split at hp
  · rcases hd : processDollar isLetter isDigit sw fuel rest with e | ⟨r, r'⟩ <;>
      rw [hd] at hp <;> cases hp
  · cases hp

/-- Without quotes and escapes, and with no byte order mark in the input or the environment,
the words are the fields of the string. -/
theorem processStopOn_fields (hbom : ∀ e ∈ sw.envs, '\uFEFF' ∉ e) (n : Nat)
    (stopChar : Option Char) (s : List Char) (hs : s.length < n) (hbs : '\uFEFF' ∉ s)
    (hplain : ∀ c ∈ s, c ≠ '\'' ∧ c ≠ '"' ∧ c ≠ '\\')
    (r : List Char) (ws : List (List Char)) (rest : List Char)
    (h : processStopOn isLetter isDigit sw n stopChar [] ⟨[], [], false⟩ s = .ok ((r, ws), rest)) :
    ws = fieldsFunc isSpace r := by
  obtain ⟨w, hw, rfl⟩ := processStopOn_inv isLetter isDigit sw
    (fun s => '\uFEFF' ∉ s ∧ ∀ c ∈ s, c ≠ '\'' ∧ c ≠ '"' ∧ c ≠ '\\')
    (fun r w => Tracks w r)
    (fun _ _ hsuf hs => ⟨fun h => hs.1 (hsuf.subset h), fun c hc => hs.2 c (hsuf.subset hc)⟩)
    (fun _ ch _ p _ _ _ hrest hs hinv hp => by
      have hexp := readPiece_expanded_not_mem isLetter isDigit sw hbom hrest hs.1 hp
      have hraw := readPiece_not_raw isLetter isDigit sw (hs.2 ch List.mem_cons_self) hp
      cases p with
      | raw t => exact absurd rfl (hraw t)
      | expanded t =>
        rw [Piece.addTo, WordsStruct.addString, scannerInit_of_not_mem (hexp t rfl)]
        exact hinv.foldl_addChar t
      | plain c => exact hinv.addChar c)
    n stopChar [] ⟨[], [], false⟩ s hs ⟨hbs, hplain⟩ tracks_empty r ws rest h
  exact hw.getWords

end Agree

/-! ## 7. `ProcessWord` and `ProcessWords` -/

theorem process_words_skip_bom :
    processWord Char.isAlpha Char.isDigit "$x".toList ["x=\uFEFFa".toList] =
        .ok "\uFEFFa".toList ∧
      processWords Char.isAlpha Char.isDigit "$x".toList ["x=\uFEFFa".toList] =
        .ok ["a".toList] := by
  decide +kernel

theorem process_words_agree (isLetter isDigit : Char → Bool) (word : List Char)
    (env : List (List Char)) (hword : '\uFEFF' ∉ word) (henv : ∀ e ∈ env, '\uFEFF' ∉ e) :
    ((∃ e, processWords isLetter isDigit word env = .error e) ↔
      ∃ e, processWord isLetter isDigit word env = .error e) ∧
    (∀ r ws, processWord isLetter isDigit word env = .ok r →
      processWords isLetter isDigit word env = .ok ws → DropsSome isSpace r ws.flatten) ∧
    ((∀ c ∈ word, c ≠ '\'' ∧ c ≠ '"' ∧ c ≠ '\\') → ∀ r,
      processWord isLetter isDigit word env = .ok r →
        processWords isLetter isDigit word env = .ok (fieldsFunc isSpace r)) := by
  unfold processWord processWords process
  rw [scannerInit_of_not_mem hword]
  rcases hr : processStopOn isLetter isDigit ⟨word, env⟩ (word.length + 1) none []
    ⟨[], [], false⟩ word with e | ⟨⟨r, ws⟩, rest⟩
  · -- both fail, with the same error
    refine ⟨⟨fun _ => ⟨e, rfl⟩, fun _ => ⟨e, rfl⟩⟩, ?_, ?_⟩
    · intro _ _ h
      cases h
    · intro _ _ h
      cases h
  · refine ⟨⟨fun ⟨_, h⟩ => (by cases h), fun ⟨_, h⟩ => (by cases h)⟩, ?_, ?_⟩
    · rintro r' ws' ⟨⟩ ⟨⟩
      exact processStopOn_dropsSome isLetter isDigit _ henv _ none word (Nat.lt_succ_self _)
        hword r ws rest hr
    · rintro hplain r' ⟨⟩
      rw [processStopOn_fields isLetter isDigit _ henv _ none word (Nat.lt_succ_self _) hword
        hplain r ws rest hr]
      rfl

example : processWords Char.isAlpha Char.isDigit "a$\x7bx:-\"b c\"\x7d$\x7by\x7d d$".toList
      ["y=1 2".toList] =
    .ok ["ab".toList, "c1".toList, "2".toList, "d$".toList] := by
  decide +kernel

end Docker.Dockerfile
