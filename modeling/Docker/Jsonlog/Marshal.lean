import Docker.Reasoning.JsonString

/-!
# Marshal — the json-file log line (`pkg/jsonlog/jsonlogbytes.go`, `jsonlog_marshalling.go`,
`daemon/logger/jsonfilelog/jsonfilelog.go`)

`ffjsonWriteJSONString` writes a string as a JSON string literal.  Its loop keeps a run of bytes
that need no escape (`s[start:i]`) and writes the run only when an escape or the end comes; the
plain `escape` writes each unit as it comes.  The loop writes what `escape` does
(`writeLoop_eq`), and a JSON reader reads back from it the string with each byte that starts no
valid UTF-8 replaced by U+FFFD (`readString_escape`).  `MarshalJSONBuf` places its commas by a
`first` flag; the object it writes is its members joined by commas (`marshalJSONBuf_eq`).
-/

namespace Docker.Jsonlog

open Reasoning Utf8 JsonString Hex

/-- The bytes of an ASCII literal, as `buf.WriteString` writes them. -/
def ascii (s : String) : List UInt8 := s.toList.map Char.toUInt8

/-- `hex[n]` of `const hex = "0123456789abcdef"`. -/
def hex (n : Nat) : UInt8 := (hexDigit n).toUInt8

/-- An ASCII byte the loop passes over, to be written with its run. -/
def passes (b : UInt8) : Bool :=
  0x20 ≤ b.toNat && b != backslash && b != quote && b != '<'.toUInt8 && b != '>'.toUInt8 &&
    b != '&'.toUInt8

/-- The `switch b` of the loop: the escape of an ASCII byte it does not pass over. -/
def escapeByte (b : UInt8) : List UInt8 :=
  if b = backslash ∨ b = quote then [backslash, b]
  else if b = '\n'.toUInt8 then [backslash, 'n'.toUInt8]
  else if b = '\r'.toUInt8 then [backslash, 'r'.toUInt8]
  else ascii "\\u00" ++ [hex (b.toNat >>> 4), hex (b.toNat &&& 0xF)]

/-- The loop of `ffjsonWriteJSONString`, from `i` on: `rest` is `s[i:]` and `run` is `s[start:i]`,
the bytes passed over and not yet written.  `if start < i { buf.Write(s[start:i]) }` writes `run`,
and writing an empty run writes nothing. -/
def writeLoop (rest run buf : List UInt8) : List UInt8 :=
  match rest with
  | [] => buf ++ run
  | b :: bs =>
    if b.toNat < runeSelf then
      if passes b then writeLoop bs (run ++ [b]) buf
      else writeLoop bs [] (buf ++ run ++ escapeByte b)
    else
      let c := (decodeRune (b :: bs)).1
      let size := (decodeRune (b :: bs)).2
      if c = runeError ∧ size = 1 then
        writeLoop ((b :: bs).drop size) [] (buf ++ run ++ ascii "\\ufffd")
      else if c = 0x2028 ∨ c = 0x2029 then
        writeLoop ((b :: bs).drop size) [] (buf ++ run ++ ascii "\\u202" ++ [hex (c &&& 0xF)])
      else writeLoop ((b :: bs).drop size) (run ++ (b :: bs).take size) buf
termination_by rest.length
decreasing_by
  all_goals
    have hsize := (decodeRune_size (b :: bs) (List.cons_ne_nil b bs)).1
    simp only [List.length_drop, List.length_cons]
    omega

/-- `ffjsonWriteJSONString(buf, s)`; a Go string is its bytes, and `DecodeRuneInString` reads
them as `DecodeRune` does. -/
def ffjsonWriteJSONString (buf s : List UInt8) : List UInt8 :=
  writeLoop s [] (buf ++ [quote]) ++ [quote]

/-- `ffjsonWriteJSONBytesAsString(buf, s)`. -/
def ffjsonWriteJSONBytesAsString (buf s : List UInt8) : List UInt8 :=
  writeLoop s [] (buf ++ [quote]) ++ [quote]

/-- What the loop writes for `s`, one unit at a time. -/
def escape (s : List UInt8) : List UInt8 :=
  match s with
  | [] => []
  | b :: bs =>
    if b.toNat < runeSelf then (if passes b then [b] else escapeByte b) ++ escape bs
    else
      let c := (decodeRune (b :: bs)).1
      let size := (decodeRune (b :: bs)).2
      if c = runeError ∧ size = 1 then ascii "\\ufffd" ++ escape ((b :: bs).drop size)
      else if c = 0x2028 ∨ c = 0x2029 then
        ascii "\\u202" ++ [hex (c &&& 0xF)] ++ escape ((b :: bs).drop size)
      else (b :: bs).take size ++ escape ((b :: bs).drop size)
termination_by s.length
decreasing_by
  all_goals
    have hsize := (decodeRune_size (b :: bs) (List.cons_ne_nil b bs)).1
    simp only [List.length_drop, List.length_cons]
    omega

section Escape

variable {b : UInt8} {bs : List UInt8}

@[simp] theorem escape_nil : escape [] = [] := by
  rw [escape]

theorem escape_ascii (hb : b.toNat < runeSelf) :
    escape (b :: bs) = (if passes b then [b] else escapeByte b) ++ escape bs := by
  rw [escape, if_pos hb]

theorem escape_error (hb : ¬ b.toNat < runeSelf) (herr : decodeRune (b :: bs) = (runeError, 1)) :
    escape (b :: bs) = ascii "\\ufffd" ++ escape bs := by
  rw [escape, if_neg hb]
  simp [herr]

theorem escape_sep (hb : ¬ b.toNat < runeSelf) (herr : decodeRune (b :: bs) ≠ (runeError, 1))
    (hsep : (decodeRune (b :: bs)).1 = 0x2028 ∨ (decodeRune (b :: bs)).1 = 0x2029) :
    escape (b :: bs) = ascii "\\u202" ++ [hex ((decodeRune (b :: bs)).1 &&& 0xF)] ++
      escape ((b :: bs).drop (decodeRune (b :: bs)).2) := by
  have herr' : ¬ ((decodeRune (b :: bs)).1 = runeError ∧ (decodeRune (b :: bs)).2 = 1) :=
    fun h => herr (Prod.ext h.1 h.2)
  rw [escape, if_neg hb]
  simp only [herr', hsep, if_false, if_true]

theorem escape_rune (hb : ¬ b.toNat < runeSelf) (herr : decodeRune (b :: bs) ≠ (runeError, 1))
    (hsep : ¬ ((decodeRune (b :: bs)).1 = 0x2028 ∨ (decodeRune (b :: bs)).1 = 0x2029)) :
    escape (b :: bs) = (b :: bs).take (decodeRune (b :: bs)).2 ++
      escape ((b :: bs).drop (decodeRune (b :: bs)).2) := by
  have herr' : ¬ ((decodeRune (b :: bs)).1 = runeError ∧ (decodeRune (b :: bs)).2 = 1) :=
    fun h => herr (Prod.ext h.1 h.2)
  rw [escape, if_neg hb]
  simp only [herr', hsep, if_false]

end Escape

/-! ## 1. The loop writes the plain escape -/

/-- The run the loop holds back is written before the escape of what is left. -/
theorem writeLoop_eq (rest run buf : List UInt8) :
    writeLoop rest run buf = buf ++ run ++ escape rest := by
  fun_induction writeLoop rest run buf with
  | case1 run buf => simp
  | case2 run buf b bs hb hp ih => rw [ih, escape_ascii hb]; simp [hp]
  | case3 run buf b bs hb hp ih => rw [ih, escape_ascii hb]; simp [hp]
  | case4 run buf b bs hb c size herr ih =>
    simp only [c, size] at herr ih ⊢
    have herr' : decodeRune (b :: bs) = (runeError, 1) := Prod.ext herr.1 herr.2
    rw [ih, escape_error hb herr', herr', List.drop_one, List.tail_cons]
    simp
  | case5 run buf b bs hb c size herr hsep ih =>
    simp only [c, size] at herr hsep ih ⊢
    rw [ih, escape_sep hb (fun h => herr ⟨congrArg Prod.fst h, congrArg Prod.snd h⟩) hsep]
    simp
  | case6 run buf b bs hb c size herr hsep ih =>
    simp only [c, size] at herr hsep ih ⊢
    rw [ih, escape_rune hb (fun h => herr ⟨congrArg Prod.fst h, congrArg Prod.snd h⟩) hsep]
    simp

/-- `ffjsonWriteJSONBytesAsString` writes the plain escape between quotes. -/
theorem ffjsonWriteJSONBytesAsString_eq (buf s : List UInt8) :
    ffjsonWriteJSONBytesAsString buf s = buf ++ quote :: escape s ++ [quote] := by
  rw [ffjsonWriteJSONBytesAsString, writeLoop_eq]
  simp

/-! ## 2. A JSON reader reads the bytes back

Each unit `escape` writes reads back, by `readStep`, as the bytes `sanitize` keeps for it. -/

section Units

variable {b : UInt8}

theorem hexVal_hex {n : Nat} (hn : n < 16) : hexVal (hex n) = some n :=
  hexVal_hexDigit n hn

theorem readStep_passes (hb : b.toNat < runeSelf) (hp : passes b = true) (t : List UInt8) :
    readStep (b :: t) = .chunk [b] t := by
  simp only [passes, Bool.and_eq_true, decide_eq_true_eq, bne_iff_ne, ne_eq] at hp
  obtain ⟨⟨⟨⟨⟨hlo, hbs⟩, hq⟩, -⟩, -⟩, -⟩ := hp
  exact readStep_raw t hlo hb hq hbs

/-- `\u00` and two hex digits read back as the byte. -/
theorem readStep_u00 (hb : b.toNat < runeSelf) (t : List UInt8) :
    readStep (ascii "\\u00" ++ [hex (b.toNat >>> 4), hex (b.toNat &&& 0xF)] ++ t) = .chunk [b] t := by
  unfold runeSelf at hb
  have hhi : b.toNat >>> 4 = b.toNat / 16 := Nat.shiftRight_eq_div_pow _ 4
  have hlo : b.toNat &&& 0xF = b.toNat % 16 := Nat.and_two_pow_sub_one_eq_mod _ 4
  have h4 : hex4 0x30 0x30 (hex (b.toNat >>> 4)) (hex (b.toNat &&& 0xF)) = some b.toNat := by
    rw [hex4_eq (show hexVal 0x30 = some 0 by decide) (show hexVal 0x30 = some 0 by decide)
      (hexVal_hex (by omega)) (hexVal_hex (by omega)), hhi, hlo]
    congr 1
    omega
  have hs : isSurrogate b.toNat = false := by
    simp only [isSurrogate, Bool.and_eq_false_iff, decide_eq_false_iff_not]
    omega
  have hu : ascii "\\u00" = [backslash, 0x75, 0x30, 0x30] := by decide +kernel
  simp only [hu, List.cons_append, List.nil_append]
  rw [readStep_u t h4 hs, encodeRune_one (by unfold rune1Max; omega), UInt8.ofNat_toNat]

/-- Every escape of the `switch` reads back as its byte. -/
theorem readStep_escapeByte (hb : b.toNat < runeSelf) (t : List UInt8) :
    readStep (escapeByte b ++ t) = .chunk [b] t := by
  unfold escapeByte
  split_ifs with hq hn hr
  · have he : simpleEscape b = some b := by
      rcases hq with rfl | rfl <;> decide
    exact readStep_simpleEscape t he
  · subst hn
    exact readStep_simpleEscape t (by decide)
  · subst hr
    exact readStep_simpleEscape t (by decide)
  · exact readStep_u00 hb t

theorem readStep_ufffd (t : List UInt8) :
    readStep (ascii "\\ufffd" ++ t) = .chunk (encodeRune runeError) t := by
  have hu : ascii "\\ufffd" = [backslash, 0x75, 0x66, 0x66, 0x66, 0x64] := by decide +kernel
  have h4 : hex4 0x66 0x66 0x66 0x64 = some runeError := by decide
  simp only [hu, List.cons_append, List.nil_append]
  exact readStep_u t h4 (by decide)

/-- `\u2028` and `\u2029` read back as the separators. -/
theorem readStep_u202 {c : Nat} (hc : c = 0x2028 ∨ c = 0x2029) (t : List UInt8) :
    readStep (ascii "\\u202" ++ [hex (c &&& 0xF)] ++ t) = .chunk (encodeRune c) t := by
  have hlo : c &&& 0xF = c % 16 := Nat.and_two_pow_sub_one_eq_mod _ 4
  have h4 : hex4 0x32 0x30 0x32 (hex (c &&& 0xF)) = some c := by
    rw [hex4_eq (show hexVal 0x32 = some 2 by decide) (show hexVal 0x30 = some 0 by decide)
      (show hexVal 0x32 = some 2 by decide) (hexVal_hex (by omega)), hlo]
    congr 1
    omega
  have hs : isSurrogate c = false := by rcases hc with rfl | rfl <;> rfl
  have hu : ascii "\\u202" = [backslash, 0x75, 0x32, 0x30, 0x32] := by decide +kernel
  simp only [hu, List.cons_append, List.nil_append]
  exact readStep_u t h4 hs

end Units

/-- Reading what `escape` wrote, up to the closing quote, gives the bytes made valid UTF-8. -/
theorem readString_escape (s tail : List UInt8) :
    readString (escape s ++ quote :: tail) = some (sanitize s, tail) := by
  fun_induction escape s with
  | case1 =>
    rw [List.nil_append, readString_of_done (readStep_quote tail), sanitize]
  | case2 b bs hb ih =>
    have hunit : readStep ((if passes b then [b] else escapeByte b) ++ (escape bs ++ quote :: tail)) =
        .chunk [b] (escape bs ++ quote :: tail) := by
      split
      · exact readStep_passes hb ‹_› _
      · exact readStep_escapeByte hb _
    rw [List.append_assoc, sanitize_ascii hb, readString_cons_chunk hunit ih, List.singleton_append]
  | case3 b bs hb c size herr ih =>
    -- a byte that starts no valid encoding: `\ufffd`, and the reader writes U+FFFD
    have herr' : decodeRune (b :: bs) = (runeError, 1) := Prod.ext herr.1 herr.2
    simp only [size, herr', List.drop_one, List.tail_cons] at ih ⊢
    rw [List.append_assoc, sanitize_of_error herr', readString_cons_chunk (readStep_ufffd _) ih]
  | case4 b bs hb c size herr hsep ih =>
    simp only [c, size] at herr hsep ih ⊢
    have h := readString_cons_chunk
      (readStep_u202 hsep (escape ((b :: bs).drop (decodeRune (b :: bs)).2) ++ quote :: tail)) ih
    rw [sanitize_of_ne_nil (List.cons_ne_nil b bs)]
    simpa only [List.append_assoc] using h
  | case5 b bs hb c size herr hsep ih =>
    -- any other rune is copied, and the reader decodes it and writes it back
    simp only [c, size] at herr hsep ih ⊢
    have hok : decodeRune (b :: bs) ≠ (runeError, 1) := fun h => herr ⟨congrArg Prod.fst h, congrArg Prod.snd h⟩
    have hv := (decodeRune_spec (b :: bs) (List.cons_ne_nil b bs) hok).1
    rw [List.append_assoc, take_decodeRune (List.cons_ne_nil b bs) hok,
      sanitize_of_ne_nil (List.cons_ne_nil b bs)]
    exact readString_cons_chunk (readStep_rune hv (rune1Max_lt_decodeRune hb hok) _) ih

/-- After its opening quote, what `ffjsonWriteJSONBytesAsString` writes reads back, up to its
closing quote, as the bytes made valid UTF-8. -/
theorem ffjsonWriteJSONBytesAsString_reads (buf s tail : List UInt8) :
    ∃ body, ffjsonWriteJSONBytesAsString buf s = buf ++ quote :: body ∧
      readString (body ++ tail) = some (sanitize s, tail) := by
  refine ⟨escape s ++ [quote], ?_, ?_⟩
  · rw [ffjsonWriteJSONBytesAsString, writeLoop_eq]
    simp
  · rw [List.append_assoc, List.singleton_append]
    exact readString_escape s tail

/-! ## 3. The escaped text holds no control byte

Nor any of `<`, `>`, `&`: the loop escapes them so that the text can sit inside HTML. -/

/-- A byte the escaped text may hold. -/
def Plain (x : UInt8) : Prop :=
  0x20 ≤ x.toNat ∧ x ≠ '<'.toUInt8 ∧ x ≠ '>'.toUInt8 ∧ x ≠ '&'.toUInt8

instance (x : UInt8) : Decidable (Plain x) := inferInstanceAs (Decidable (_ ∧ _))

section Plain

variable {b : UInt8}

theorem plain_of_passes (hp : passes b = true) : Plain b := by
  simp only [passes, Bool.and_eq_true, decide_eq_true_eq, bne_iff_ne, ne_eq] at hp
  obtain ⟨⟨⟨⟨⟨hlo, -⟩, -⟩, hlt⟩, hgt⟩, hamp⟩ := hp
  exact ⟨hlo, hlt, hgt, hamp⟩

theorem plain_of_runeSelf_le (h : runeSelf ≤ b.toNat) : Plain b := by
  unfold runeSelf at h
  refine ⟨by omega, ?_, ?_, ?_⟩ <;> (intro he; subst he; exact absurd h (by decide))

theorem plain_hex {n : Nat} (hn : n < 16) : Plain (hex n) := by
  revert n
  decide

theorem plain_escapeByte (hb : b.toNat < runeSelf) : ∀ x ∈ escapeByte b, Plain x := by
  have hu00 : ∀ x ∈ ascii "\\u00", Plain x := by decide +kernel
  have hhi : b.toNat >>> 4 < 16 := by
    rw [Nat.shiftRight_eq_div_pow]
    unfold runeSelf at hb
    omega
  have hlo : b.toNat &&& 0xF < 16 := by
    rw [show (0xF : Nat) = 2 ^ 4 - 1 from rfl, Nat.and_two_pow_sub_one_eq_mod]
    omega
  unfold escapeByte
  split_ifs with hq
  · rcases hq with rfl | rfl <;> decide +kernel
  · decide +kernel
  · decide +kernel
  · intro x hx
    rcases List.mem_append.mp hx with hx | hx
    · exact hu00 x hx
    · rcases List.mem_pair.mp hx with rfl | rfl
      · exact plain_hex hhi
      · exact plain_hex hlo

end Plain

theorem escape_plain (s : List UInt8) : ∀ x ∈ escape s, Plain x := by
  fun_induction escape s with
  | case1 => simp
  | case2 b bs hb ih =>
    intro x hx
    rcases List.mem_append.mp hx with hx | hx
    · split at hx
      · rw [List.mem_singleton.mp hx]
        exact plain_of_passes ‹_›
      · exact plain_escapeByte hb x hx
    · exact ih x hx
  | case3 b bs hb c size herr ih =>
    have hu : ∀ x ∈ ascii "\\ufffd", Plain x := by decide +kernel
    intro x hx
    rcases List.mem_append.mp hx with hx | hx
    · exact hu x hx
    · exact ih x hx
  | case4 b bs hb c size herr hsep ih =>
    have hu : ∀ x ∈ ascii "\\u202", Plain x := by decide +kernel
    have hlo : c &&& 0xF < 16 := by
      rw [show (0xF : Nat) = 2 ^ 4 - 1 from rfl, Nat.and_two_pow_sub_one_eq_mod]
      omega
    intro x hx
    rcases List.mem_append.mp hx with hx | hx
    · rcases List.mem_append.mp hx with hx | hx
      · exact hu x hx
      · rw [List.mem_singleton.mp hx]
        exact plain_hex hlo
    · exact ih x hx
  | case5 b bs hb c size herr hsep ih =>
    -- the copied bytes are a rune's encoding, past ASCII
    simp only [c, size] at herr hsep ih ⊢
    have hok : decodeRune (b :: bs) ≠ (runeError, 1) :=
      fun h => herr ⟨congrArg Prod.fst h, congrArg Prod.snd h⟩
    rw [take_decodeRune (List.cons_ne_nil b bs) hok]
    intro x hx
    rcases List.mem_append.mp hx with hx | hx
    · exact plain_of_runeSelf_le (encodeRune_ge (rune1Max_lt_decodeRune hb hok) x hx)
    · exact ih x hx

/-- What `ffjsonWriteJSONBytesAsString` writes holds no control byte and none of `<`, `>`, `&`. -/
theorem ffjsonWriteJSONBytesAsString_plain (s : List UInt8) :
    ∀ x ∈ ffjsonWriteJSONBytesAsString [] s, Plain x := by
  have hq : Plain quote := by decide
  rw [ffjsonWriteJSONBytesAsString, writeLoop_eq]
  intro x hx
  simp only [List.nil_append, List.append_nil, List.mem_append, List.mem_singleton] at hx
  rcases hx with (rfl | hx) | rfl
  · exact hq
  · exact escape_plain s x hx
  · exact hq

/-- A newline is written as `\n`, whose `n` is plain. -/
theorem ffjsonWriteJSONBytesAsString_plain_newline : Plain 'n'.toUInt8 :=
  ffjsonWriteJSONBytesAsString_plain ['\n'.toUInt8] 'n'.toUInt8 (by
    rw [ffjsonWriteJSONBytesAsString, writeLoop_eq, escape_ascii (by decide), escape_nil]
    decide)

/-! ## 4. The log object -/

/-- `JSONLogs`: the log line's fields, with `Created` already marshalled and `RawAttrs` already
JSON. -/
structure JSONLogs where
  log : List UInt8
  stream : List UInt8
  created : List UInt8
  rawAttrs : List UInt8

/-- `if first { first = false } else { buf.WriteString(",") }`. -/
def comma (first : Bool) (buf : List UInt8) : List UInt8 :=
  if first then buf else buf ++ ascii ","

/-- `(*JSONLogs).MarshalJSONBuf`, each assignment of `buf` and `first` in turn. -/
def JSONLogs.marshalJSONBuf (mj : JSONLogs) (buf : List UInt8) : List UInt8 :=
  let buf := buf ++ ascii "\x7b"
  let first := mj.log.length == 0
  let buf :=
    if mj.log.length ≠ 0 then ffjsonWriteJSONBytesAsString (buf ++ ascii "\x22log\x22:") mj.log
    else buf
  let buf :=
    if mj.stream.length ≠ 0 then
      ffjsonWriteJSONString (comma first buf ++ ascii "\x22stream\x22:") mj.stream
    else buf
  let first := first && mj.stream.length == 0
  let buf := if mj.rawAttrs.length > 0 then comma first buf ++ ascii "\x22attrs\x22:" ++ mj.rawAttrs else buf
  let first := first && !(mj.rawAttrs.length > 0)
  let buf := if !first then buf ++ ascii "," else buf
  buf ++ ascii "\x22time\x22:" ++ mj.created ++ ascii "\x7d"

/-- The object's members, in order: those of `log`, `stream` and `attrs` that are not empty, then
`time`. -/
def JSONLogs.members (mj : JSONLogs) : List (List UInt8) :=
  (if mj.log = [] then [] else [ascii "\x22log\x22:" ++ quote :: escape mj.log ++ [quote]]) ++
  (if mj.stream = [] then [] else [ascii "\x22stream\x22:" ++ quote :: escape mj.stream ++ [quote]]) ++
  (if mj.rawAttrs = [] then [] else [ascii "\x22attrs\x22:" ++ mj.rawAttrs]) ++
  [ascii "\x22time\x22:" ++ mj.created]

/-- The `first` flag puts a comma between every two members and nowhere else. -/
theorem marshalJSONBuf_eq (mj : JSONLogs) (buf : List UInt8) :
    mj.marshalJSONBuf buf =
      buf ++ ascii "\x7b" ++ (ascii ",").intercalate mj.members ++ ascii "\x7d" := by
  by_cases hl : mj.log = [] <;> by_cases hs : mj.stream = [] <;> by_cases ha : mj.rawAttrs = [] <;>
    simp [JSONLogs.marshalJSONBuf, JSONLogs.members, hl, hs, ha, comma, ffjsonWriteJSONString,
      ffjsonWriteJSONBytesAsString, writeLoop_eq, List.length_pos_iff]

theorem forall_mem_intercalate {P : UInt8 → Prop} {sep : List UInt8} {xs : List (List UInt8)}
    (hsep : ∀ x ∈ sep, P x) (hxs : ∀ l ∈ xs, ∀ x ∈ l, P x) : ∀ x ∈ sep.intercalate xs, P x := by
  induction xs with
  | nil => simp
  | cons l ls ih =>
    rcases ls with _ | ⟨l', ls'⟩
    · rw [List.intercalate_singleton]
      exact hxs l List.mem_cons_self
    · rw [List.intercalate_cons_cons]
      intro x hx
      rcases List.mem_append.mp hx with hx | hx
      · rcases List.mem_append.mp hx with hx | hx
        · exact hxs l List.mem_cons_self x hx
        · exact hsep x hx
      · exact ih (fun l hl => hxs l (List.mem_cons_of_mem _ hl)) x hx

/-- No member holds a raw newline when neither `created` nor `attrs` does. -/
theorem members_newline (mj : JSONLogs) (hc : '\n'.toUInt8 ∉ mj.created)
    (ha : '\n'.toUInt8 ∉ mj.rawAttrs) : ∀ l ∈ mj.members, ∀ x ∈ l, x ≠ '\n'.toUInt8 := by
  -- the escaped strings hold plain bytes only, and a plain byte is no control byte
  have hesc : ∀ s : List UInt8, ∀ x ∈ quote :: escape s ++ [quote], x ≠ '\n'.toUInt8 := by
    intro s x hx he
    subst he
    rcases List.mem_append.mp hx with hx | hx
    · rcases List.mem_cons.mp hx with hx | hx
      · exact absurd hx (by decide)
      · exact absurd (escape_plain s _ hx).1 (by decide)
    · exact absurd (List.mem_singleton.mp hx) (by decide)
  have hlit : ∀ t : String, (∀ x ∈ ascii t, x ≠ '\n'.toUInt8) → ∀ r : List UInt8,
      (∀ x ∈ r, x ≠ '\n'.toUInt8) → ∀ x ∈ ascii t ++ r, x ≠ '\n'.toUInt8 := by
    intro t ht r hr x hx
    rcases List.mem_append.mp hx with hx | hx
    · exact ht x hx
    · exact hr x hx
  intro l hl
  simp only [JSONLogs.members, List.mem_append] at hl
  rcases hl with ((hl | hl) | hl) | hl
  · split at hl
    · cases hl
    · rw [List.mem_singleton.mp hl, List.append_assoc, List.cons_append]
      exact hlit _ (by decide +kernel) _ (List.cons_append .. ▸ hesc mj.log)
  · split at hl
    · cases hl
    · rw [List.mem_singleton.mp hl, List.append_assoc, List.cons_append]
      exact hlit _ (by decide +kernel) _ (List.cons_append .. ▸ hesc mj.stream)
  · split at hl
    · cases hl
    · rw [List.mem_singleton.mp hl]
      exact hlit _ (by decide +kernel) _ (fun x hx he => ha (he ▸ hx))
  · rw [List.mem_singleton.mp hl]
    exact hlit _ (by decide +kernel) _ (fun x hx he => hc (he ▸ hx))

/-- The object holds no raw newline when neither `created` nor `attrs` does. -/
theorem marshalJSONBuf_newline (mj : JSONLogs) (hc : '\n'.toUInt8 ∉ mj.created)
    (ha : '\n'.toUInt8 ∉ mj.rawAttrs) : '\n'.toUInt8 ∉ mj.marshalJSONBuf [] := by
  have hlit : ∀ x ∈ ascii "\x7b" ++ ascii "\x7d" ++ ascii ",", x ≠ '\n'.toUInt8 := by
    decide +kernel
  rw [marshalJSONBuf_eq, List.nil_append]
  intro hmem
  rcases List.mem_append.mp hmem with hm | hm
  · rcases List.mem_append.mp hm with hm | hm
    · exact hlit _ (by simp [hm]) rfl
    · exact forall_mem_intercalate (fun x hx => hlit x (by simp [hx]))
        (members_newline mj hc ha) _ hm rfl
  · exact hlit _ (by simp [hm]) rfl

/-! ## 5. The log line -/

/-- The fields of `logger.Message` that `Log` reads. -/
structure Message where
  line : List UInt8
  source : List UInt8

/-- The field of `JSONFileLogger` that `Log` reads: the attributes `New` marshalled. -/
structure JSONFileLogger where
  extra : List UInt8

/-- `(*JSONFileLogger).Log(msg)`: what it writes to the file, for the `timestamp` that
`FastTimeMarshalJSON(msg.Timestamp)` returned.  `l.buf` is empty at each call, as the call before
ends with `l.buf.Reset()`. -/
def JSONFileLogger.log (l : JSONFileLogger) (timestamp : List UInt8) (msg : Message) :
    List UInt8 :=
  ({ log := msg.line ++ ['\n'.toUInt8], stream := msg.source, created := timestamp,
      rawAttrs := l.extra } : JSONLogs).marshalJSONBuf [] ++ ['\n'.toUInt8]

/-- A log line is one line: its only newline is the one that ends it. -/
theorem log_one_line (l : JSONFileLogger) (timestamp : List UInt8) (msg : Message)
    (hx : '\n'.toUInt8 ∉ l.extra) (ht : '\n'.toUInt8 ∉ timestamp) :
    ∃ body, l.log timestamp msg = body ++ ['\n'.toUInt8] ∧ '\n'.toUInt8 ∉ body :=
  ⟨_, rfl, marshalJSONBuf_newline _ ht hx⟩

theorem log_one_line_multiline_message :
    '\n'.toUInt8 ∉ (JSONFileLogger.mk (ascii "\x7b\x22env\x22:\x22prod\x22\x7d")).extra ∧
    '\n'.toUInt8 ∉ ascii "\x222016-11-10T09:30:00.5Z\x22" ∧
    ∃ body, (JSONFileLogger.mk (ascii "\x7b\x22env\x22:\x22prod\x22\x7d")).log
        (ascii "\x222016-11-10T09:30:00.5Z\x22") ⟨ascii "two\nlines", ascii "stdout"⟩ =
      body ++ ['\n'.toUInt8] ∧ '\n'.toUInt8 ∉ body :=
  ⟨by decide +kernel, by decide +kernel,
    log_one_line (JSONFileLogger.mk (ascii "\x7b\x22env\x22:\x22prod\x22\x7d"))
      (ascii "\x222016-11-10T09:30:00.5Z\x22") ⟨ascii "two\nlines", ascii "stdout"⟩
      (by decide +kernel) (by decide +kernel)⟩

end Docker.Jsonlog
