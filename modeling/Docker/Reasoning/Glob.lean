import Mathlib

/-!
# Glob — `path/filepath.Match` of Go 1.6

`Match(pattern, name)` splits the pattern into chunks (`scanChunk`: the leading stars, then
literals, classes `[…]` and `?` up to the next star outside brackets) and matches them one by one
(`matchChunk`).  A chunk after a star is tried at the current position, then after skipping one
more character at a time, never a `/` (`starLoop`); the first position that fits is kept, and
the last chunk must also reach the end of the name.  A malformed class or a trailing backslash is
`ErrBadPattern`, reported only when the matcher reaches it.

Names and patterns are sequences of runes.  Go's star loop steps through bytes; the two differ
only when a `?` or a class is tried from inside a multi-byte rune.

The pattern loop runs on fuel: every round consumes at least one character of the pattern, so the
length of the pattern and one more is enough.
-/

namespace Reasoning.Glob

/-- `scanChunk`'s loop: the length of the chunk, which ends at a `*` outside brackets.  A
backslash carries the next character with it. -/
def chunkLength (inrange : Bool) : List Char → Nat
  | [] => 0
  | '\\' :: _ :: rest => chunkLength inrange rest + 2
  | ['\\'] => 1
  | '[' :: rest => chunkLength true rest + 1
  | ']' :: rest => chunkLength false rest + 1
  | '*' :: rest => if inrange then chunkLength inrange rest + 1 else 0
  | _ :: rest => chunkLength inrange rest + 1

/-- `scanChunk`: whether stars lead, the chunk after them, and the rest of the pattern. -/
def scanChunk (pattern : List Char) : Bool × List Char × List Char :=
  let p := pattern.dropWhile (· == '*')
  let n := chunkLength false p
  (p.length < pattern.length, p.take n, p.drop n)

/-- Where `matchChunk` stands in the chunk: at the next operator, or inside a class for the rune
`r` (with `nrange` ranges read and whether one held) before the low end of a range, after a
backslash there, or after `lo-` before the high end. -/
inductive Reading where
  | top
  | lo (r : Char) (negated : Bool) (nrange : Nat) (matched : Bool)
  | loEsc (r : Char) (negated : Bool) (nrange : Nat) (matched : Bool)
  | hi (r : Char) (negated : Bool) (nrange : Nat) (matched : Bool) (lo : Char)
  | hiEsc (r : Char) (negated : Bool) (nrange : Nat) (matched : Bool) (lo : Char)

/-- `matchChunk` read one character of the chunk at a time.  Inside a class, `getEsc` reads each
end of a range: it refuses a bare `-` or `]`, and a chunk that ends right after the character. -/
def matchChunkAt : Reading → List Char → List Char → Except Unit (Option (List Char))
  | .top, [], s => .ok (some s)
  | .top, _ :: _, [] => .ok none
  | .top, '[' :: '^' :: chunk, r :: s => matchChunkAt (.lo r true 0 false) chunk s
  | .top, '[' :: chunk, r :: s => matchChunkAt (.lo r false 0 false) chunk s
  | .top, '?' :: chunk, r :: s => if r = '/' then .ok none else matchChunkAt .top chunk s
  | .top, ['\\'], _ :: _ => .error ()
  | .top, '\\' :: c :: chunk, r :: s => if c = r then matchChunkAt .top chunk s else .ok none
  | .top, c :: chunk, r :: s => if c = r then matchChunkAt .top chunk s else .ok none
  -- a `]` closes the class once it holds a range
  | .lo _ neg n m, ']' :: chunk, s =>
    if 0 < n then (if m == neg then .ok none else matchChunkAt .top chunk s) else .error ()
  | .lo .., [], _ | .lo .., '-' :: _, _ | .lo .., [_], _ => .error ()
  | .lo r neg n m, '\\' :: chunk, s => matchChunkAt (.loEsc r neg n m) chunk s
  | .lo r neg n m, c :: '-' :: chunk, s => matchChunkAt (.hi r neg n m c) chunk s
  | .lo r neg n m, c :: chunk, s => matchChunkAt (.lo r neg (n + 1) (m || c == r)) chunk s
  | .loEsc .., [], _ | .loEsc .., [_], _ => .error ()
  | .loEsc r neg n m, c :: '-' :: chunk, s => matchChunkAt (.hi r neg n m c) chunk s
  | .loEsc r neg n m, c :: chunk, s => matchChunkAt (.lo r neg (n + 1) (m || c == r)) chunk s
  | .hi .., [], _ | .hi .., '-' :: _, _ | .hi .., ']' :: _, _ | .hi .., [_], _ => .error ()
  | .hi r neg n m lo, '\\' :: chunk, s => matchChunkAt (.hiEsc r neg n m lo) chunk s
  | .hi r neg n m lo, c :: chunk, s =>
    matchChunkAt (.lo r neg (n + 1) (m || (lo ≤ r && r ≤ c))) chunk s
  | .hiEsc .., [], _ | .hiEsc .., [_], _ => .error ()
  | .hiEsc r neg n m lo, c :: chunk, s =>
    matchChunkAt (.lo r neg (n + 1) (m || (lo ≤ r && r ≤ c))) chunk s

/-- `matchChunk`: whether the chunk (literals, classes, `?`) matches the start of `s`, and what
is left of `s`.  An error is `ErrBadPattern`. -/
def matchChunk (chunk s : List Char) : Except Unit (Option (List Char)) :=
  matchChunkAt .top chunk s

/-- The star loop of `Match`: the chunk tried after skipping one more character, which may not be
a `/`.  The last chunk must also reach the end of the name. -/
def starLoop (chunk : List Char) (last : Bool) : List Char → Except Unit (Option (List Char))
  | [] => .ok none
  | c :: name =>
    if c = '/' then .ok none else
    match matchChunk chunk name with
    | .ok (some t) => if last && !t.isEmpty then starLoop chunk last name else .ok (some t)
    | .ok none => starLoop chunk last name
    | .error e => .error e

/-- What `Match` does when the chunk does not fit where the name stands: with a star, the star
loop, and on with the rest of the pattern (`k`). -/
def afterStar (star : Bool) (chunk : List Char) (last : Bool) (name : List Char)
    (k : List Char → Except Unit Bool) : Except Unit Bool :=
  if star then
    match starLoop chunk last name with
    | .ok (some t) => k t
    | .ok none => .ok false
    | .error e => .error e
  else .ok false

/-- The loop of `Match` over the chunks of the pattern. -/
def matchPattern : Nat → List Char → List Char → Except Unit Bool
  | 0, _, _ => .ok false
  | _ + 1, [], name => .ok name.isEmpty
  | fuel + 1, pattern, name =>
    match scanChunk pattern with
    | (star, chunk, rest) =>
      -- a trailing star matches the rest of the name unless it has a `/`
      if star && chunk.isEmpty then .ok (!name.contains '/') else
      match matchChunk chunk name with
      | .ok (some t) =>
        if t.isEmpty || !rest.isEmpty then matchPattern fuel rest t
        else afterStar star chunk rest.isEmpty name (matchPattern fuel rest)
      | .ok none => afterStar star chunk rest.isEmpty name (matchPattern fuel rest)
      | .error e => .error e

/-- `filepath.Match`. -/
def filepathMatch (pattern name : List Char) : Except Unit Bool :=
  matchPattern (pattern.length + 1) pattern name

example : filepathMatch "a*b*c*d*e*/f".toList "axbxcxdxexxx/f".toList = .ok true := by decide
example : filepathMatch "a*/b".toList "a/c/b".toList = .ok false := by decide
example : filepathMatch "[x-]".toList "x".toList = .error () := by decide
example : filepathMatch "a[".toList "a".toList = .ok false := by decide

end Reasoning.Glob
