import Mathlib
import Docker.Reasoning.Regex

/-!
# RegexSyntax — Go's regular expression syntax, read into `Regex`

`regexp.MatchString(pat, s)` compiles `pat` with the Perl flags of `regexp/syntax` (`^` and `$`
at the ends of the text only, `.` not matching a newline, `[^…]` matching one) and reports
whether some substring of `s` matches.  The parser reads the syntax by recursive descent, in the
shape of Go's grammar: alternation, concatenation, a piece (an atom with at most one repetition
operator: a second one is an error, as Go forbids `a**`), atoms.

It keeps Go's syntax errors (`invalid`): a repetition with nothing to repeat, a second
repetition, an unclosed or unopened parenthesis, an unclosed class, a reversed range, a trailing
or unknown escape.  What the fragment leaves out is `unsupported`: flag groups `(?i)`, named
groups, `\b`, `\B`, `\Q`, `\p`, hexadecimal escapes and POSIX classes.  The parser runs on fuel;
running out is also `unsupported`.
-/

namespace Reasoning.RegexSyntax

open Regex (eps sat alt seq star bol eol lit plus opt search)

inductive SyntaxError where
  | invalid
  | unsupported
  deriving DecidableEq, Repr

abbrev Parse (β : Type) := Except SyntaxError (β × List Char)

def isDigit (c : Char) : Bool := '0' ≤ c && c ≤ '9'

def isOctal (c : Char) : Bool := '0' ≤ c && c ≤ '7'

def isAlnum (c : Char) : Bool := isDigit c || ('a' ≤ c && c ≤ 'z') || ('A' ≤ c && c ≤ 'Z')

-- `\s` and `\w`: `[\t\n\f\r ]` and `[0-9A-Za-z_]`
def isSpace (c : Char) : Bool := c = '\t' || c = '\n' || c = '\x0c' || c = '\r' || c = ' '

def isWord (c : Char) : Bool := isAlnum c || c = '_'

/-- The Perl classes `\d`, `\s`, `\w` and their negations. -/
def perlClass : Char → Option (Char → Bool)
  | 'd' => some isDigit
  | 'D' => some fun c => !isDigit c
  | 's' => some isSpace
  | 'S' => some fun c => !isSpace c
  | 'w' => some isWord
  | 'W' => some fun c => !isWord c
  | _ => none

/-- The C escapes `\a`, `\f`, `\n`, `\r`, `\t`, `\v`. -/
def cEscape : Char → Option Char
  | 'a' => some '\x07'
  | 'f' => some '\x0c'
  | 'n' => some '\n'
  | 'r' => some '\r'
  | 't' => some '\t'
  | 'v' => some '\x0b'
  | _ => none

/-- Up to `k` more octal digits after the value `acc`. -/
def octalDigits (acc : Nat) : Nat → List Char → Nat × List Char
  | 0, t => (acc, t)
  | _ + 1, [] => (acc, [])
  | k + 1, c :: t => if isOctal c then octalDigits (8 * acc + (c.toNat - '0'.toNat)) k t else (acc, c :: t)

/-- `parseEscape`, after the backslash: an octal escape (a single digit `1`–`7` would be a back
reference, which Go refuses), a C escape, or escaped ASCII punctuation. -/
def parseEscape : List Char → Parse Char
  | [] => .error .invalid
  | c :: t =>
    if ('1' ≤ c && c ≤ '7') && !(t.head?.map isOctal).getD false then .error .invalid
    else if '0' ≤ c && c ≤ '7' then
      match octalDigits (c.toNat - '0'.toNat) 2 t with
      | (v, t') => .ok (Char.ofNat v, t')
    else if c = 'x' then .error .unsupported
    else
      match cEscape c with
      | some e => .ok (e, t)
      | none => if c.toNat < 128 && !isAlnum c then .ok (c, t) else .error .invalid

def parseClassChar : List Char → Parse Char
  | [] => .error .invalid
  | '\\' :: t => parseEscape t
  | c :: t => .ok (c, t)

/-- A Perl class escape at the head. -/
def perlEscape : List Char → Option ((Char → Bool) × List Char)
  | '\\' :: c :: t => (perlClass c).map fun q => (q, t)
  | _ => none

/-- `parseClass`'s loop over the items of `[…]`: characters, ranges `lo-hi` and Perl classes, up to a
`]` that is not the first item.  The accumulated class is a predicate. -/
def parseClassItems : Nat → Bool → (Char → Bool) → List Char → Parse (Char → Bool)
  | 0, _, _, _ => .error .unsupported
  | fuel + 1, first, acc, t =>
    if t.head? = some ']' && !first then .ok (acc, t.tail)
    else if t.take 2 = ['[', ':'] || t.take 2 = ['\\', 'p'] || t.take 2 = ['\\', 'P'] then
      .error .unsupported
    else
      match perlEscape t with
      | some (q, rest) => parseClassItems fuel false (fun x => acc x || q x) rest
      | none =>
        match parseClassChar t with
        | .error e => .error e
        | .ok (lo, rest) =>
          match rest with
          | '-' :: c :: rest' =>
            -- `[a-]` is `a` and `-`
            if c = ']' then parseClassItems fuel false (fun x => acc x || x == lo) rest else
            match parseClassChar (c :: rest') with
            | .error e => .error e
            | .ok (hi, rest'') =>
              if hi < lo then .error .invalid
              else parseClassItems fuel false (fun x => acc x || (lo ≤ x && x ≤ hi)) rest''
          | _ => parseClassItems fuel false (fun x => acc x || x == lo) rest

/-- `parseClass`, after the `[`: an optional `^` negates. -/
def parseClass (fuel : Nat) : List Char → Parse (Regex Char)
  | '^' :: t =>
    match parseClassItems fuel true (fun _ => false) t with
    | .error e => .error e
    | .ok (q, rest) => .ok (sat fun x => !q x, rest)
  | t =>
    match parseClassItems fuel true (fun _ => false) t with
    | .error e => .error e
    | .ok (q, rest) => .ok (sat q, rest)

/-! ## Repetition -/

/-- `parseInt`: decimal digits without a leading zero. -/
def parseInt (s : List Char) : Option (Nat × List Char) :=
  match s.takeWhile isDigit with
  | [] => none
  | '0' :: _ :: _ => none
  | ds => some (ds.foldl (fun n c => 10 * n + (c.toNat - '0'.toNat)) 0, s.dropWhile isDigit)

/-- `parseRepeat`: `{n}`, `{n,}` or `{n,m}`, with the bounds (`none`: no upper bound). -/
def parseRepeat : List Char → Option (Nat × Option Nat × List Char)
  | '{' :: s =>
    match parseInt s with
    | none => none
    | some (lo, '}' :: rest) => some (lo, some lo, rest)
    | some (lo, ',' :: '}' :: rest) => some (lo, none, rest)
    | some (lo, ',' :: s) =>
      match parseInt s with
      | some (hi, '}' :: rest) => some (lo, some hi, rest)
      | _ => none
    | some _ => none
  | _ => none

def repeatN (r : Regex Char) : Nat → Regex Char
  | 0 => eps
  | n + 1 => seq r (repeatN r n)

/-- `r{lo,hi}` as `lo` copies followed by `hi - lo` optional ones, or by a star. -/
def repeatRange (lo : Nat) (hi : Option Nat) (r : Regex Char) : Regex Char :=
  match hi with
  | some hi => seq (repeatN r lo) (repeatN (opt r) (hi - lo))
  | none => seq (repeatN r lo) (star r)

/-- A repetition operator at the head, with the operator it applies.  A `{` that is not a
repetition is a literal; bounds over 1000 or reversed are an error. -/
def repeatOp : List Char → Except SyntaxError (Option ((Regex Char → Regex Char) × List Char))
  | '*' :: t => .ok (some (star, t))
  | '+' :: t => .ok (some (plus, t))
  | '?' :: t => .ok (some (opt, t))
  | s =>
    match parseRepeat s with
    | none => .ok none
    | some (lo, hi, t) =>
      if 1000 < lo || (hi.map (fun hi => 1000 < hi || hi < lo)).getD false then .error .invalid
      else .ok (some (repeatRange lo hi, t))

-- the lazy form `*?` means the same set of matches
def skipLazy : List Char → List Char
  | '?' :: t => t
  | t => t

/-- After an atom: at most one repetition operator, with its lazy `?`. -/
def applyRepeat (r : Regex Char) (s : List Char) : Parse (Regex Char) :=
  match repeatOp s with
  | .error e => .error e
  | .ok none => .ok (r, s)
  | .ok (some (f, rest)) =>
    match repeatOp (skipLazy rest) with
    | .ok none => .ok (f r, skipLazy rest)
    | _ => .error .invalid

-- a group's closing parenthesis
def closeGroup : Parse (Regex Char) → Parse (Regex Char)
  | .ok (r, ')' :: rest) => .ok (r, rest)
  | .ok _ => .error .invalid
  | .error e => .error e

/-! ## The grammar -/

mutual

def parseAlt : Nat → List Char → Parse (Regex Char)
  | 0, _ => .error .unsupported
  | fuel + 1, s =>
    match parseConcat fuel s with
    | .error e => .error e
    | .ok (r, '|' :: rest) =>
      match parseAlt fuel rest with
      | .error e => .error e
      | .ok (r', rest') => .ok (alt r r', rest')
    | .ok (r, rest) => .ok (r, rest)

def parseConcat : Nat → List Char → Parse (Regex Char)
  | 0, _ => .error .unsupported
  | _ + 1, [] => .ok (eps, [])
  | _ + 1, '|' :: rest => .ok (eps, '|' :: rest)
  | _ + 1, ')' :: rest => .ok (eps, ')' :: rest)
  | fuel + 1, s =>
    match parsePiece fuel s with
    | .error e => .error e
    | .ok (r, rest) =>
      match parseConcat fuel rest with
      | .error e => .error e
      | .ok (r', rest') => .ok (seq r r', rest')

def parsePiece : Nat → List Char → Parse (Regex Char)
  | 0, _ => .error .unsupported
  | fuel + 1, s =>
    match parseAtom fuel s with
    | .error e => .error e
    | .ok (r, rest) => applyRepeat r rest

def parseAtom : Nat → List Char → Parse (Regex Char)
  | 0, _ => .error .unsupported
  | fuel + 1, s =>
    match s with
    | '(' :: '?' :: ':' :: t => closeGroup (parseAlt fuel t)
    | '(' :: '?' :: _ => .error .unsupported
    | '(' :: t => closeGroup (parseAlt fuel t)
    | '[' :: t => parseClass fuel t
    | '.' :: t => .ok (sat fun c => c != '\n', t)
    | '^' :: t => .ok (bol, t)
    | '$' :: t => .ok (eol, t)
    -- a repetition operator with nothing to repeat
    | '*' :: _ | '+' :: _ | '?' :: _ => .error .invalid
    | '{' :: t => if (parseRepeat s).isSome then .error .invalid else .ok (lit '{', t)
    | '\\' :: t =>
      match t with
      | [] => .error .invalid
      | 'A' :: rest => .ok (bol, rest)
      | 'z' :: rest => .ok (eol, rest)
      | 'C' :: _ => .error .invalid
      | 'b' :: _ | 'B' :: _ | 'Q' :: _ | 'p' :: _ | 'P' :: _ => .error .unsupported
      | c :: rest =>
        match perlClass c with
        | some q => .ok (sat q, rest)
        | none =>
          match parseEscape t with
          | .error e => .error e
          | .ok (e, rest) => .ok (lit e, rest)
    | c :: t => .ok (lit c, t)
    | [] => .ok (eps, [])

end

/-- `regexp/syntax.Parse` with the Perl flags: the whole pattern, with fuel for every nesting the
pattern can hold. -/
def compile (pat : List Char) : Except SyntaxError (Regex Char) :=
  match parseAlt (4 * pat.length + 4) pat with
  | .error e => .error e
  | .ok (r, []) => .ok r
  -- a `)` that closes nothing
  | .ok _ => .error .invalid

/-- `regexp.MatchString`: whether some substring matches. -/
def matchString (pat s : List Char) : Except SyntaxError Bool :=
  match compile pat with
  | .error e => .error e
  | .ok r => .ok (search r s)

example : matchString "^a+b$".toList "a+b".toList = .ok false := by decide +kernel
example : matchString "^a+b$".toList "aab".toList = .ok true := by decide +kernel
example : matchString "^ab[c]$".toList "abc".toList = .ok true := by decide +kernel
example : matchString "^a[$".toList "a".toList = .error .invalid := by decide +kernel
example : matchString "^x**$".toList "x".toList = .error .invalid := by decide +kernel

end Reasoning.RegexSyntax
