import Docker.Reasoning.JsonString

/-!
# JsonValue — reading JSON objects of strings

The values of RFC 8259 that a log line holds: strings, and objects whose members are such values.
`readValue` reads one, after any whitespace, and returns what follows it; it recurses through
`readMembers` into nested objects and runs on fuel, one unit per value and per member.

`Reads t v` says that `t` is the text of `v` whatever follows it, with as much fuel as it has bytes.
Texts built from member texts read as the object of their values (`reads_objectText`), so a
writer's output can be read back part by part.
-/

namespace Reasoning.JsonValue

open Utf8 JsonString

inductive Value where
  | str (s : List UInt8)
  | obj (members : List (List UInt8 × Value))

def lbrace : UInt8 := 0x7B

def rbrace : UInt8 := 0x7D

def colon : UInt8 := 0x3A

def comma : UInt8 := 0x2C

/-- RFC 8259's `ws`: space, tab, line feed, carriage return. -/
def isWs (c : UInt8) : Bool := c == 0x20 || c == 0x09 || c == 0x0A || c == 0x0D

def skipWs : List UInt8 → List UInt8
  | [] => []
  | c :: s => if isWs c then skipWs s else c :: s

mutual

/-- One value after any whitespace, and what follows it. -/
def readValue : Nat → List UInt8 → Option (Value × List UInt8)
  | 0, _ => none
  | n + 1, l =>
    match skipWs l with
    | [] => none
    | c :: s =>
      if c = quote then (readString s).map fun r => (.str r.1, r.2)
      else if c = lbrace then
        match skipWs s with
        | [] => none
        | c' :: s' =>
          if c' = rbrace then some (.obj [], s')
          else (readMembers n (c' :: s')).map fun r => (.obj r.1, r.2)
      else none

/-- The members of an object after its `{`, up to and past its `}`. -/
def readMembers : Nat → List UInt8 → Option (List (List UInt8 × Value) × List UInt8)
  | 0, _ => none
  | n + 1, l =>
    match skipWs l with
    | c :: s =>
      if c = quote then
        match readString s with
        | some (k, r) =>
          match skipWs r with
          | c' :: r' =>
            if c' = colon then
              match readValue n r' with
              | some (v, r'') =>
                match skipWs r'' with
                | c'' :: r''' =>
                  if c'' = comma then (readMembers n r''').map fun m => ((k, v) :: m.1, m.2)
                  else if c'' = rbrace then some ([(k, v)], r''')
                  else none
                | [] => none
              | none => none
            else none
          | [] => none
        | none => none
      else none
    | [] => none

end

theorem skipWs_cons {c : UInt8} (h : isWs c = false) (s : List UInt8) : skipWs (c :: s) = c :: s := by
  simp [skipWs, h]

theorem readValue_ws {c : UInt8} (h : isWs c = true) (n : Nat) (s : List UInt8) :
    readValue (n + 1) (c :: s) = readValue (n + 1) s := by
  rw [readValue, readValue, skipWs, if_pos h]

/-! ## Texts that read as values -/

/-- `t` is the text of `v`, whatever follows it, with as much fuel as `t` has bytes. -/
def Reads (t : List UInt8) (v : Value) : Prop :=
  ∀ n, t.length ≤ n → ∀ rest, readValue n (t ++ rest) = some (v, rest)

/-- A key: a string literal's contents that read as themselves. -/
def KeyText (k : List UInt8) : Prop := ∀ rest, readString (k ++ quote :: rest) = some (k, rest)

/-- `"key":value`. -/
def memberText (k t : List UInt8) : List UInt8 := quote :: k ++ quote :: colon :: t

/-- `{` and the members joined by commas, then `}`. -/
def objectText (ms : List (List UInt8 × List UInt8)) : List UInt8 :=
  lbrace :: [comma].intercalate (ms.map fun m => memberText m.1 m.2) ++ [rbrace]

theorem readValue_quote (n : Nat) (s : List UInt8) :
    readValue (n + 1) (quote :: s) = (readString s).map fun r => (.str r.1, r.2) := by
  rw [readValue, skipWs_cons (by decide)]
  simp

/-- A string literal, from its opening quote on. -/
theorem reads_string {t v : List UInt8} (h : ∀ rest, readString (t ++ rest) = some (v, rest)) :
    Reads (quote :: t) (.str v) := by
  intro n hn rest
  obtain ⟨m, rfl⟩ : ∃ m, n = m + 1 := ⟨n - 1, by simp at hn; omega⟩
  rw [List.cons_append, readValue_quote, h]
  rfl

/-- One member and what follows its value: `"key":value` then `,` and more members, or `}`. -/
theorem readMembers_member {k t : List UInt8} {v : Value} (hk : KeyText k) (hv : Reads t v)
    {n : Nat} (hn : t.length ≤ n) (c : UInt8) (hc : isWs c = false) (rest : List UInt8) :
    readMembers (n + 1) (memberText k t ++ c :: rest) =
      if c = comma then (readMembers n rest).map fun m => ((k, v) :: m.1, m.2)
      else if c = rbrace then some ([(k, v)], rest) else none := by
  have hkey := hk (colon :: (t ++ c :: rest))
  have hval := hv n hn (c :: rest)
  simp only [memberText, List.cons_append, List.append_assoc] at hkey ⊢
  rw [readMembers, skipWs_cons (by decide)]
  simp only [hkey, skipWs_cons (show isWs colon = false by decide), hval, skipWs_cons hc,
    if_true]

theorem length_memberText (k t : List UInt8) : (memberText k t).length = k.length + t.length + 3 := by
  simp only [memberText, List.length_cons, List.length_append]
  omega

/-- Members joined by commas, then `}`, read as the list of their values. -/
theorem readMembers_text (ms : List (List UInt8 × List UInt8 × Value)) (hne : ms ≠ [])
    (hms : ∀ m ∈ ms, KeyText m.1 ∧ Reads m.2.1 m.2.2) (n : Nat)
    (hn : ([comma].intercalate (ms.map fun m => memberText m.1 m.2.1)).length + 1 ≤ n)
    (rest : List UInt8) :
    readMembers n ([comma].intercalate (ms.map fun m => memberText m.1 m.2.1) ++ rbrace :: rest) =
      some (ms.map fun m => (m.1, m.2.2), rest) := by
  induction ms generalizing n with
  | nil => exact absurd rfl hne
  | cons m ms ih =>
    obtain ⟨hk, hv⟩ := hms m List.mem_cons_self
    obtain ⟨n, rfl⟩ : ∃ k, n = k + 1 := ⟨n - 1, by omega⟩
    have hlen := length_memberText m.1 m.2.1
    rcases ms with _ | ⟨m', ms'⟩
    · -- the last member, closed by `}`
      rw [List.map_singleton, List.intercalate_singleton] at hn ⊢
      rw [readMembers_member hk hv (by omega) rbrace (by decide) rest]
      simp [show rbrace ≠ comma by decide]
    · -- a member, a comma, and the rest
      simp only [List.map_cons] at hn ih ⊢
      rw [List.intercalate_cons_cons] at hn
      simp only [List.length_append, List.length_singleton] at hn
      have hr := ih (List.cons_ne_nil _ _) (fun m hm => hms m (List.mem_cons_of_mem _ hm)) n
        (by omega)
      rw [List.intercalate_cons_cons, List.append_assoc, List.append_assoc, List.singleton_append,
        readMembers_member hk hv (by omega) comma (by decide), if_pos rfl, hr]
      rfl

/-- An object's text reads as the object of its members' values. -/
theorem reads_objectText (ms : List (List UInt8 × List UInt8 × Value))
    (hms : ∀ m ∈ ms, KeyText m.1 ∧ Reads m.2.1 m.2.2) :
    Reads (objectText (ms.map fun m => (m.1, m.2.1))) (.obj (ms.map fun m => (m.1, m.2.2))) := by
  intro n hn rest
  obtain ⟨n, rfl⟩ : ∃ k, n = k + 1 := ⟨n - 1, by simp [objectText] at hn; omega⟩
  rcases ms with _ | ⟨m, ms⟩
  · simp only [objectText, List.map_nil, List.intercalate_nil, List.nil_append, List.cons_append]
    rw [readValue, skipWs_cons (by decide)]
    simp [show lbrace ≠ quote by decide, skipWs_cons (show isWs rbrace = false by decide)]
  · have hcomp : ((fun m => memberText m.1 m.2) ∘ fun m : List UInt8 × List UInt8 × Value =>
        (m.1, m.2.1)) = fun m => memberText m.1 m.2.1 := rfl
    simp only [objectText, List.map_map, hcomp, List.length_cons, List.length_append] at hn
    have hm := readMembers_text (m :: ms) (List.cons_ne_nil _ _) hms n (by omega) rest
    simp only [objectText, List.map_map, hcomp, List.cons_append, List.append_assoc,
      List.nil_append]
    -- the members start with the quote of the first key
    obtain ⟨Y, hY⟩ : ∃ Y, [comma].intercalate ((m :: ms).map fun m => memberText m.1 m.2.1) ++
        rbrace :: rest = quote :: Y := by
      rcases ms with _ | ⟨m', ms'⟩
      · exact ⟨_, rfl⟩
      · exact ⟨_, rfl⟩
    rw [hY] at hm
    rw [hY, readValue, skipWs_cons (by decide)]
    simp [show lbrace ≠ quote by decide, skipWs_cons (show isWs quote = false by decide),
      show quote ≠ rbrace by decide, hm]

/-! ## Member names and struct fields (`encoding/json`, `fold.go`)

A member whose key is not exactly a field's name still sets the first field whose name folds to
the key.  The fold is picked by the name (`foldFunc`); the two below are the ones for names of
ASCII letters, `equalFoldRight` for those with a `k` or an `s`, which also match the Kelvin sign
(U+212A) and the long s (U+017F). -/

/-- `caseMask`: clears the bit that tells an ASCII lower-case letter from its upper case. -/
def caseMask : UInt8 := 0xDF

/-- `simpleLetterEqualFold(s, t)`, for `s` of ASCII letters. -/
def simpleLetterEqualFold (s t : List UInt8) : Bool :=
  s.length == t.length && (s.zip t).all fun p => p.1 &&& caseMask == p.2 &&& caseMask

/-- `equalFoldRight(s, t)`, for `s` of ASCII bytes.  `utf8.DecodeRune` reads U+017F exactly from
the bytes `C5 BF` and U+212A exactly from `E2 84 AA`. -/
def equalFoldRight : List UInt8 → List UInt8 → Bool
  | [], t => t.isEmpty
  | _ :: _, [] => false
  | sb :: s, tb :: t =>
    if tb < 0x80 then
      let sbUpper := sb &&& caseMask
      (sb == tb || (0x41 ≤ sbUpper && sbUpper ≤ 0x5A && sbUpper == tb &&& caseMask)) &&
        equalFoldRight s t
    else
      -- `t` must be either kelvin sign or long s; `sb` must be s, S, k, or K
      match tb :: t with
      | 0xC5 :: 0xBF :: t => (sb == 0x73 || sb == 0x53) && equalFoldRight s t
      | 0xE2 :: 0x84 :: 0xAA :: t => (sb == 0x6B || sb == 0x4B) && equalFoldRight s t
      | _ => false

example : equalFoldRight "stream".toUTF8.toList "ſTREAM".toUTF8.toList = true ∧
    simpleLetterEqualFold "log".toUTF8.toList "LoG".toUTF8.toList = true := by
  decide +kernel

end Reasoning.JsonValue
