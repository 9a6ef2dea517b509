import Docker.Jsonlog.Marshal
import Docker.Reasoning.JsonValue

/-!
# Decode — reading the json-file log back (`daemon/logger/jsonfilelog/read.go`,
`pkg/jsonlog/jsonlog.go`)

`decodeLogLine` resets a `jsonlog.JSONLog` and decodes into it the next JSON value of the file.
Decoding an object into the struct sets the field each key names, matched without regard to case
as `encoding/json` does; decoding into the `Attrs` map sets one entry per member, into the map
already there.  `Reset` clears `Log`, `Stream` and
`Created` but leaves `Attrs`, so the map is carried from one line to the next.

What `Log` writes decodes back (`decodeLogLine_log`): the message bytes with each byte that starts
no valid UTF-8 replaced by U+FFFD, its source, the text of its timestamp, and the attributes, set
into the map that the line before left.
-/

namespace Docker.Jsonlog

open Reasoning Utf8 JsonString JsonValue

/-- `m[k] = v` on a `map[string]string`, its entries kept in the order their keys were first set. -/
def setMapIndex (m : List (List UInt8 × List UInt8)) (k v : List UInt8) :
    List (List UInt8 × List UInt8) :=
  if m.any (·.1 == k) then m.map fun e => if e.1 = k then (k, v) else e else m ++ [(k, v)]

/-- `jsonlog.JSONLog`.  `created` is the text of the `time` member, `none` for the zero time
(`time.Time`'s parser is not modelled); `attrs` is `none` for a `nil` map. -/
structure JSONLog where
  log : List UInt8
  stream : List UInt8
  created : Option (List UInt8)
  attrs : Option (List (List UInt8 × List UInt8))

/-- `(*JSONLog).Reset`: `Attrs` is left as it was. -/
def JSONLog.reset (jl : JSONLog) : JSONLog :=
  { jl with log := [], stream := [], created := none }

/-- An object decoded into a `map[string]string`: each member sets its key, and a member that is
not a string is a type error. -/
def decodeMap : List (List UInt8 × List UInt8) → List (List UInt8 × Value) →
    Option (List (List UInt8 × List UInt8))
  | m, [] => some m
  | m, (k, .str v) :: ms => decodeMap (setMapIndex m k v) ms
  | _, (_, .obj _) :: _ => none

/-- The fields of `JSONLog`. -/
inductive Field where
  | log
  | stream
  | time
  | attrs
  deriving DecidableEq, Repr

/-- The fields of `JSONLog` in order, by their JSON names, each with the fold `foldFunc` picks for
its name: `equalFoldRight` for the names with an `s`, `simpleLetterEqualFold` for the others. -/
def fields : List (List UInt8 × Field × (List UInt8 → List UInt8 → Bool)) :=
  [(ascii "log", .log, simpleLetterEqualFold), (ascii "stream", .stream, equalFoldRight),
   (ascii "time", .time, simpleLetterEqualFold), (ascii "attrs", .attrs, equalFoldRight)]

/-- The field a member's key sets, as `object()` looks it up: the field whose name is the key,
else the first whose name folds to it. -/
def fieldOf (key : List UInt8) : Option Field :=
  match fields.find? (fun f => f.1 == key) with
  | some f => some f.2.1
  | none => (fields.find? fun f => f.2.2 f.1 key).map (·.2.1)

@[simp] theorem fieldOf_log : fieldOf (ascii "log") = some .log := by decide +kernel

@[simp] theorem fieldOf_stream : fieldOf (ascii "stream") = some .stream := by decide +kernel

@[simp] theorem fieldOf_time : fieldOf (ascii "time") = some .time := by decide +kernel

@[simp] theorem fieldOf_attrs : fieldOf (ascii "attrs") = some .attrs := by decide +kernel

example : fieldOf (ascii "LOG") = some .log ∧ fieldOf ("ſtream".toUTF8.toList) = some .stream ∧
    fieldOf (ascii "logs") = none := by
  decide +kernel

/-- One member of an object decoded into `JSONLog`: the field its key names is set, a value of the
wrong kind is a type error, and a key that names no field is skipped.  Decoding into a `nil` map
makes a new one. -/
def JSONLog.decodeMember (jl : JSONLog) : List UInt8 × Value → Option JSONLog
  | (k, .str s) =>
    match fieldOf k with
    | some .log => some { jl with log := s }
    | some .stream => some { jl with stream := s }
    | some .time => some { jl with created := some s }
    | some .attrs => none
    | none => some jl
  | (k, .obj ms) =>
    match fieldOf k with
    | some .attrs => (decodeMap (jl.attrs.getD []) ms).map fun m => { jl with attrs := some m }
    | some _ => none
    | none => some jl

/-- A value decoded into `JSONLog`: only an object fits the struct. -/
def JSONLog.decode (jl : JSONLog) : Value → Option JSONLog
  | .obj ms => ms.foldlM JSONLog.decodeMember jl
  | .str _ => none

/-- `logger.Message` as `decodeLogLine` fills it. -/
structure LogMessage where
  source : List UInt8
  timestamp : Option (List UInt8)
  line : List UInt8
  attrs : Option (List (List UInt8 × List UInt8))

/-- `decodeLogLine(dec, l)`: `input` is what the decoder has not read yet.  The reader is given one
unit of fuel per byte, more than a value of that text can use. -/
def decodeLogLine (l : JSONLog) (input : List UInt8) : Option (LogMessage × JSONLog × List UInt8) :=
  match readValue (input.length + 1) input with
  | none => none
  | some (v, rest) =>
    (l.reset.decode v).map fun l =>
      ({ source := l.stream, timestamp := l.created, line := l.log, attrs := l.attrs }, l, rest)

/-! ## The object `MarshalJSONBuf` writes reads back -/

/-- The members `MarshalJSONBuf` writes: key, text, and the value read from the text, for the
values `attrs` and `time` that its raw `attrs` and `created` texts hold. -/
def JSONLogs.memberValues (mj : JSONLogs) (attrs time : Value) :
    List (List UInt8 × List UInt8 × Value) :=
  (if mj.log = [] then [] else [(ascii "log", quote :: escape mj.log ++ [quote], .str (sanitize mj.log))]) ++
  (if mj.stream = [] then []
    else [(ascii "stream", quote :: escape mj.stream ++ [quote], .str (sanitize mj.stream))]) ++
  (if mj.rawAttrs = [] then [] else [(ascii "attrs", mj.rawAttrs, attrs)]) ++
  [(ascii "time", mj.created, time)]

theorem marshalJSONBuf_objectText (mj : JSONLogs) (attrs time : Value) :
    mj.marshalJSONBuf [] = objectText ((mj.memberValues attrs time).map fun m => (m.1, m.2.1)) := by
  have hlog : ascii "\x22log\x22:" = quote :: ascii "log" ++ [quote, colon] := by decide +kernel
  have hstream : ascii "\x22stream\x22:" = quote :: ascii "stream" ++ [quote, colon] := by
    decide +kernel
  have hattrs : ascii "\x22attrs\x22:" = quote :: ascii "attrs" ++ [quote, colon] := by
    decide +kernel
  have htime : ascii "\x22time\x22:" = quote :: ascii "time" ++ [quote, colon] := by decide +kernel
  have hbraces : ascii "\x7b" = [lbrace] ∧ ascii "\x7d" = [rbrace] ∧ ascii "," = [JsonValue.comma] := by
    decide +kernel
  rw [marshalJSONBuf_eq, objectText, List.map_map, hbraces.1, hbraces.2.1, hbraces.2.2]
  -- each member's text is `"key":` and its value's text
  have hmem : mj.members = (mj.memberValues attrs time).map fun m => memberText m.1 m.2.1 := by
    simp only [JSONLogs.members, JSONLogs.memberValues, hlog, hstream, hattrs, htime, memberText]
    split_ifs <;> simp
  rw [hmem]
  simp only [List.nil_append, List.cons_append]
  rfl

/-- A string written by the ffjson loop reads as the string made valid UTF-8. -/
theorem reads_escape (s : List UInt8) : Reads (quote :: escape s ++ [quote]) (.str (sanitize s)) :=
  reads_string fun rest => by
    show readString (escape s ++ [quote] ++ rest) = _
    rw [List.append_assoc, List.singleton_append]
    exact readString_escape s rest

theorem keyText_ascii {k : String} (hk : ∀ c ∈ ascii k, 0x20 ≤ c.toNat ∧ c.toNat < runeSelf ∧
    c ≠ quote ∧ c ≠ backslash) : KeyText (ascii k) :=
  fun rest => readString_plain hk rest

/-- The object reads as its members' values, given the values its raw texts hold. -/
theorem reads_marshalJSONBuf (mj : JSONLogs) {attrs time : Value}
    (ha : mj.rawAttrs ≠ [] → Reads mj.rawAttrs attrs) (ht : Reads mj.created time) :
    Reads (mj.marshalJSONBuf []) (.obj ((mj.memberValues attrs time).map fun m => (m.1, m.2.2))) := by
  rw [marshalJSONBuf_objectText mj attrs time]
  apply reads_objectText
  intro m hm
  simp only [JSONLogs.memberValues, List.mem_append] at hm
  rcases hm with ((hm | hm) | hm) | hm
  · split at hm
    · cases hm
    · rw [List.mem_singleton.mp hm]
      exact ⟨keyText_ascii (by decide +kernel), reads_escape mj.log⟩
  · split at hm
    · cases hm
    · rw [List.mem_singleton.mp hm]
      exact ⟨keyText_ascii (by decide +kernel), reads_escape mj.stream⟩
  · split at hm
    · cases hm
    · rename_i hne
      rw [List.mem_singleton.mp hm]
      exact ⟨keyText_ascii (by decide +kernel), ha hne⟩
  · rw [List.mem_singleton.mp hm]
    exact ⟨keyText_ascii (by decide +kernel), ht⟩

/-! ## Decoding the line into `JSONLog` -/

theorem decodeMap_strs (m ms : List (List UInt8 × List UInt8)) :
    decodeMap m (ms.map fun e => (e.1, .str e.2)) =
      some (ms.foldl (fun m e => setMapIndex m e.1 e.2) m) := by
  induction ms generalizing m with
  | nil => rfl
  | cons e ms ih => exact ih _

@[simp] theorem sanitize_nil : sanitize [] = [] := by
  rw [sanitize]

/-- The members of an object `MarshalJSONBuf` wrote, decoded in turn into a reset `JSONLog`: each
sets its field, and the attributes are set into the map that was there. -/
theorem decode_memberValues (jl : JSONLog) (mj : JSONLogs) (hlog : mj.log ≠ [])
    (ms : List (List UInt8 × List UInt8)) (t : List UInt8) :
    jl.reset.decode (.obj ((mj.memberValues (.obj (ms.map fun e => (e.1, .str e.2))) (.str t)).map
        fun m => (m.1, m.2.2))) =
      some {
        log := sanitize mj.log, stream := sanitize mj.stream, created := some t,
        attrs := if mj.rawAttrs = [] then jl.attrs
          else some (ms.foldl (fun m e => setMapIndex m e.1 e.2) (jl.attrs.getD [])) } := by
  -- with or without the optional `stream` and `attrs` members
  by_cases hs : mj.stream = [] <;> by_cases ha : mj.rawAttrs = [] <;>
    simp [JSONLogs.memberValues, JSONLog.decode, JSONLog.decodeMember, JSONLog.reset, hlog, hs, ha,
      decodeMap_strs]

/-- The line `Log` wrote, with whatever follows it in the file, reads as the object it marshalled:
the newline that ends the line is left to the next read. -/
theorem readValue_log (l : JSONFileLogger) {timestamp t : List UInt8} (msg : Message)
    {ms : List (List UInt8 × List UInt8)} (ht : Reads timestamp (.str t))
    (hx : l.extra ≠ [] → Reads l.extra (.obj (ms.map fun e => (e.1, .str e.2)))) (n : Nat)
    (hn : (l.log timestamp msg).length ≤ n) (rest : List UInt8) :
    readValue n (l.log timestamp msg ++ rest) =
      some (.obj (((JSONLogs.mk (msg.line ++ ['\n'.toUInt8]) msg.source timestamp l.extra).memberValues
        (.obj (ms.map fun e => (e.1, .str e.2))) (.str t)).map fun m => (m.1, m.2.2)),
        '\n'.toUInt8 :: rest) := by
  simp only [JSONFileLogger.log, List.length_append, List.length_singleton] at hn ⊢
  rw [List.append_assoc, List.singleton_append]
  exact reads_marshalJSONBuf _ hx ht n (by omega) _

/-- A line that `Log` wrote decodes back: the message made valid UTF-8, its source, the text of its
timestamp, and the attributes, set into the map the `JSONLog` held before. -/
theorem decodeLogLine_log (l : JSONFileLogger) (timestamp t : List UInt8) (msg : Message)
    (ms : List (List UInt8 × List UInt8)) (ht : Reads timestamp (.str t))
    (hx : l.extra ≠ [] → Reads l.extra (.obj (ms.map fun e => (e.1, .str e.2))))
    (jl : JSONLog) (rest : List UInt8) :
    decodeLogLine jl (l.log timestamp msg ++ rest) =
      some ({
          source := sanitize msg.source, timestamp := some t,
          line := sanitize (msg.line ++ ['\n'.toUInt8]),
          attrs := if l.extra = [] then jl.attrs
            else some (ms.foldl (fun m e => setMapIndex m e.1 e.2) (jl.attrs.getD [])) }, {
          log := sanitize (msg.line ++ ['\n'.toUInt8]), stream := sanitize msg.source,
          created := some t,
          attrs := if l.extra = [] then jl.attrs
            else some (ms.foldl (fun m e => setMapIndex m e.1 e.2) (jl.attrs.getD [])) },
        '\n'.toUInt8 :: rest) := by
  have hread := readValue_log l msg ht hx ((l.log timestamp msg ++ rest).length + 1)
    (by rw [List.length_append]; omega) rest
  rw [decodeLogLine, hread]
  simp only
  rw [decode_memberValues jl _ (by simp) ms t]
  rfl

/-- A timestamp as `FastTimeMarshalJSON` writes it, and the logger attributes `{"env":"prod"}`. -/
def sampleTimestamp : List UInt8 := quote :: ascii "2016-11-10T09:30:00.5Z" ++ [quote]

def sampleExtra : List UInt8 := objectText [(ascii "env", quote :: ascii "prod" ++ [quote])]

theorem reads_sampleTimestamp : Reads sampleTimestamp (.str (ascii "2016-11-10T09:30:00.5Z")) :=
  reads_string fun rest => by
    show readString (ascii "2016-11-10T09:30:00.5Z" ++ [quote] ++ rest) = _
    rw [List.append_assoc, List.singleton_append]
    exact readString_plain (by decide +kernel) rest

theorem reads_sampleExtra :
    Reads sampleExtra (.obj ([(ascii "env", ascii "prod")].map fun e => (e.1, .str e.2))) := by
  have h := reads_objectText [(ascii "env", quote :: ascii "prod" ++ [quote], .str (ascii "prod"))]
    (by
      intro m hm
      rw [List.mem_singleton.mp hm]
      refine ⟨keyText_ascii (by decide +kernel), reads_string fun rest => ?_⟩
      show readString (ascii "prod" ++ [quote] ++ rest) = _
      rw [List.append_assoc, List.singleton_append]
      exact readString_plain (by decide +kernel) rest)
  exact h

theorem decodeLogLine_log_sample :
    Reads sampleTimestamp (.str (ascii "2016-11-10T09:30:00.5Z")) ∧
    ((JSONFileLogger.mk sampleExtra).extra ≠ [] →
      Reads (JSONFileLogger.mk sampleExtra).extra
        (.obj ([(ascii "env", ascii "prod")].map fun e => (e.1, .str e.2)))) ∧
    decodeLogLine ⟨[], [], none, none⟩
        ((JSONFileLogger.mk sampleExtra).log sampleTimestamp ⟨ascii "hello", ascii "stdout"⟩ ++ []) =
      some ({
          source := sanitize (ascii "stdout"), timestamp := some (ascii "2016-11-10T09:30:00.5Z"),
          line := sanitize (ascii "hello" ++ ['\n'.toUInt8]),
          attrs := if (JSONFileLogger.mk sampleExtra).extra = [] then none
            else some ([(ascii "env", ascii "prod")].foldl (fun m e => setMapIndex m e.1 e.2)
              ((none : Option (List (List UInt8 × List UInt8))).getD [])) }, {
          log := sanitize (ascii "hello" ++ ['\n'.toUInt8]), stream := sanitize (ascii "stdout"),
          created := some (ascii "2016-11-10T09:30:00.5Z"),
          attrs := if (JSONFileLogger.mk sampleExtra).extra = [] then none
            else some ([(ascii "env", ascii "prod")].foldl (fun m e => setMapIndex m e.1 e.2)
              ((none : Option (List (List UInt8 × List UInt8))).getD [])) },
        '\n'.toUInt8 :: []) :=
  ⟨reads_sampleTimestamp, fun _ => reads_sampleExtra,
    decodeLogLine_log (JSONFileLogger.mk sampleExtra) sampleTimestamp _ ⟨ascii "hello", ascii "stdout"⟩
      [(ascii "env", ascii "prod")] reads_sampleTimestamp (fun _ => reads_sampleExtra)
      ⟨[], [], none, none⟩ []⟩

/-- `Reset` leaves `Attrs`: a line written with no attributes, read after a line written with
some, reports the attributes of the line before. -/
theorem decodeLogLine_carries_attrs (l₁ l₂ : JSONFileLogger) (ts₁ t₁ ts₂ t₂ : List UInt8)
    (msg₁ msg₂ : Message) (ms : List (List UInt8 × List UInt8)) (ht₁ : Reads ts₁ (.str t₁))
    (ht₂ : Reads ts₂ (.str t₂)) (hx₁ : l₁.extra ≠ [])
    (hr₁ : Reads l₁.extra (.obj (ms.map fun e => (e.1, .str e.2)))) (hx₂ : l₂.extra = [])
    (jl : JSONLog) (rest : List UInt8) :
    ∃ m₁ jl₁ m₂ jl₂ rest₁,
      decodeLogLine jl (l₁.log ts₁ msg₁ ++ l₂.log ts₂ msg₂ ++ rest) = some (m₁, jl₁, rest₁) ∧
      decodeLogLine jl₁ rest₁ = some (m₂, jl₂, '\n'.toUInt8 :: rest) ∧
      m₁.attrs = some (ms.foldl (fun m e => setMapIndex m e.1 e.2) (jl.attrs.getD [])) ∧
      m₂.attrs = m₁.attrs := by
  have hms : ∀ ms' : List (List UInt8 × List UInt8),
      l₂.extra ≠ [] → Reads l₂.extra (.obj (ms'.map fun e => (e.1, .str e.2))) :=
    fun _ h => absurd hx₂ h
  -- the first line
  have hread₁ := readValue_log l₁ msg₁ ht₁ (fun _ => hr₁)
    ((l₁.log ts₁ msg₁ ++ l₂.log ts₂ msg₂ ++ rest).length + 1)
    (by simp only [List.length_append]; omega) (l₂.log ts₂ msg₂ ++ rest)
  rw [← List.append_assoc] at hread₁
  have hdec₁ := decode_memberValues jl (JSONLogs.mk (msg₁.line ++ ['\n'.toUInt8]) msg₁.source ts₁ l₁.extra)
    (by simp) ms t₁
  -- the second line, after the newline that ends the first
  have hread₂ := readValue_log l₂ msg₂ ht₂ (hms []) ((l₂.log ts₂ msg₂ ++ rest).length + 1 + 1)
    (by simp only [List.length_append]; omega) rest
  -- what the first line leaves in the `JSONLog`
  let A := some (ms.foldl (fun m e => setMapIndex m e.1 e.2) (jl.attrs.getD []))
  let jl₁ : JSONLog := {
    log := sanitize (msg₁.line ++ ['\n'.toUInt8]), stream := sanitize msg₁.source,
    created := some t₁, attrs := A }
  have hdec₂ := decode_memberValues jl₁
    (JSONLogs.mk (msg₂.line ++ ['\n'.toUInt8]) msg₂.source ts₂ l₂.extra) (by simp) [] t₂
  rw [if_neg hx₁] at hdec₁
  rw [if_pos hx₂] at hdec₂
  have hline₂ : decodeLogLine jl₁ ('\n'.toUInt8 :: (l₂.log ts₂ msg₂ ++ rest)) =
      some ({
          source := sanitize msg₂.source, timestamp := some t₂,
          line := sanitize (msg₂.line ++ ['\n'.toUInt8]), attrs := A }, {
          log := sanitize (msg₂.line ++ ['\n'.toUInt8]), stream := sanitize msg₂.source,
          created := some t₂, attrs := A },
        '\n'.toUInt8 :: rest) := by
    rw [decodeLogLine, List.length_cons, readValue_ws (by decide), hread₂]
    simp only [hdec₂, Option.map_some]
    rfl
  rw [decodeLogLine, hread₁]
  simp only [hdec₁, Option.map_some]
  exact ⟨_, jl₁, _, _, _, rfl, hline₂, rfl, rfl⟩

theorem decodeLogLine_carries_attrs_sample :
    Reads sampleTimestamp (.str (ascii "2016-11-10T09:30:00.5Z")) ∧
    (JSONFileLogger.mk sampleExtra).extra ≠ [] ∧
    Reads (JSONFileLogger.mk sampleExtra).extra
      (.obj ([(ascii "env", ascii "prod")].map fun e => (e.1, .str e.2))) ∧
    (JSONFileLogger.mk []).extra = [] ∧
    ∃ m₁ jl₁ m₂ jl₂ rest₁,
      decodeLogLine ⟨[], [], none, none⟩
          ((JSONFileLogger.mk sampleExtra).log sampleTimestamp ⟨ascii "a", ascii "stdout"⟩ ++
            (JSONFileLogger.mk []).log sampleTimestamp ⟨ascii "b", ascii "stderr"⟩ ++ []) =
        some (m₁, jl₁, rest₁) ∧
      decodeLogLine jl₁ rest₁ = some (m₂, jl₂, '\n'.toUInt8 :: []) ∧
      m₁.attrs = some ([(ascii "env", ascii "prod")].foldl (fun m e => setMapIndex m e.1 e.2)
        ((none : Option (List (List UInt8 × List UInt8))).getD [])) ∧
      m₂.attrs = m₁.attrs :=
  ⟨reads_sampleTimestamp, by decide +kernel, reads_sampleExtra, rfl,
    decodeLogLine_carries_attrs (JSONFileLogger.mk sampleExtra) (JSONFileLogger.mk []) sampleTimestamp _
      sampleTimestamp _ ⟨ascii "a", ascii "stdout"⟩ ⟨ascii "b", ascii "stderr"⟩
      [(ascii "env", ascii "prod")] reads_sampleTimestamp reads_sampleTimestamp (by decide +kernel)
      reads_sampleExtra rfl ⟨[], [], none, none⟩ []⟩

end Docker.Jsonlog
