import Mathlib

/-!
# GoNet — `strings`, `net/url.Parse` and `net.SplitHostPort` of Go 1.6

Strings are lists of characters read as bytes, which they are for ASCII text.  `urlParse` keeps the
two fields of a `*url.URL` that callers here read, `Host` and `Path`, and every error of the parse:
the user info, the host and the fragment are decoded even where their values are dropped.

The `strings` helpers come with the lemmas the callers' proofs use: how `cut` finds the first
separator after a prefix without one (`cut_append_of_not_isPrefixOf`), and that a string that does
not contain the separator has no prefix that ends with it (`not_isPrefixOf_of_cut_eq_none`).
-/

namespace Reasoning.GoNet

/-! ## 1. `strings` -/

/-- `strings.SplitN(s, sep, 2)`: the text before the first `sep` and after it, if there is one. -/
def cut (s sep : List Char) : Option (List Char × List Char) :=
  if sep.isPrefixOf s then some ([], s.drop sep.length)
  else
    match s with
    | [] => none
    | c :: t => (cut t sep).map fun p => (c :: p.1, p.2)

/-- `strings.Contains(s, sep)`. -/
def contains (s sep : List Char) : Bool :=
  (cut s sep).isSome

/-- `strings.TrimPrefix(s, pfx)`. -/
def trimPrefix (s pfx : List Char) : List Char :=
  if pfx.isPrefixOf s then s.drop pfx.length else s

/-- `strings.HasSuffix(s, sfx)`. -/
def hasSuffix (s sfx : List Char) : Bool :=
  sfx.isSuffixOf s

/-- The `split` of `net/url`: around the first `c`, which goes with the second part unless
`cutc`. -/
def urlSplit (s : List Char) (c : Char) (cutc : Bool) : List Char × List Char :=
  (s.takeWhile (· ≠ c), if cutc then (s.dropWhile (· ≠ c)).drop 1 else s.dropWhile (· ≠ c))

theorem cut_cons_of_not_isPrefixOf {c : Char} {t sep : List Char}
    (h : sep.isPrefixOf (c :: t) = false) :
    cut (c :: t) sep = (cut t sep).map fun p => (c :: p.1, p.2) := by
  rw [cut, h]
  rfl

/-- Past a prefix in which no separator starts, `cut` finds the same separator as in the rest. -/
theorem cut_append_of_not_isPrefixOf (a b sep : List Char)
    (h : ∀ i < a.length, sep.isPrefixOf ((a ++ b).drop i) = false) :
    cut (a ++ b) sep = (cut b sep).map fun p => (a ++ p.1, p.2) := by
  induction a with
  | nil => simp
  | cons c a ih =>
    have h0 : sep.isPrefixOf (c :: (a ++ b)) = false := by simpa using h 0 (by simp)
    rw [List.cons_append, cut_cons_of_not_isPrefixOf h0,
      ih fun i hi => by simpa using h (i + 1) (by simp; omega)]
    cases cut b sep <;> rfl

theorem cut_of_isPrefixOf {s sep : List Char} (h : sep.isPrefixOf s = true) :
    cut s sep = some ([], s.drop sep.length) := by
  unfold cut
  rw [if_pos h]

/-- A string without the separator has no prefix that ends with it. -/
theorem not_isPrefixOf_of_cut_eq_none {s sep : List Char} (h : cut s sep = none) (pre : List Char) :
    (pre ++ sep).isPrefixOf s = false := by
  induction s generalizing pre with
  | nil =>
    cases hp : pre ++ sep with
    | nil =>
      have hsep : sep = [] := (List.append_eq_nil_iff.mp hp).2
      subst hsep
      simp [cut] at h
    | cons _ _ => rfl
  | cons c t ih =>
    by_cases hsep : sep.isPrefixOf (c :: t) = true
    · rw [cut_of_isPrefixOf hsep] at h
      cases h
    · rw [Bool.not_eq_true] at hsep
      rw [cut_cons_of_not_isPrefixOf hsep, Option.map_eq_none_iff] at h
      cases pre with
      | nil => simpa using hsep
      | cons d pre =>
        rw [List.cons_append, List.isPrefixOf_cons_cons, ih h pre, Bool.and_false]

/-- What `cut` returns are the two sides of a separator. -/
theorem eq_append_of_cut_eq_some {s sep a b : List Char} (h : cut s sep = some (a, b)) :
    s = a ++ sep ++ b := by
  have hstart : ∀ {s a}, sep.isPrefixOf s = true → cut s sep = some (a, b) →
      s = a ++ sep ++ b := by
    intro s a hp h
    rw [cut_of_isPrefixOf hp, Option.some.injEq, Prod.mk.injEq] at h
    obtain ⟨rfl, rfl⟩ := h
    rw [List.nil_append, List.prefix_iff_eq_append.mp (List.isPrefixOf_iff_prefix.mp hp)]
  induction s generalizing a with
  | nil =>
    by_cases hp : sep.isPrefixOf [] = true
    · exact hstart hp h
    · simp [cut, hp] at h
  | cons c t ih =>
    by_cases hp : sep.isPrefixOf (c :: t) = true
    · exact hstart hp h
    · rw [Bool.not_eq_true] at hp
      rw [cut_cons_of_not_isPrefixOf hp, Option.map_eq_some_iff] at h
      obtain ⟨⟨a', b'⟩, hcut, hab⟩ := h
      rw [Prod.mk.injEq] at hab
      obtain ⟨rfl, rfl⟩ := hab
      rw [ih hcut]
      rfl

/-- A separator whose first character does not occur in `a` is first found right after `a`. -/
theorem cut_append_of_not_mem {a b sep : List Char} {c : Char} (hsep : sep.head? = some c)
    (hc : c ∉ a) : cut (a ++ sep ++ b) sep = some (a, b) := by
  have hstart : ∀ i < a.length, sep.isPrefixOf ((a ++ (sep ++ b)).drop i) = false := by
    intro i hi
    obtain ⟨sep', rfl⟩ : ∃ sep', sep = c :: sep' := by
      cases sep with
      | nil => cases hsep
      | cons d sep' => exact ⟨sep', by rw [Option.some.inj hsep]⟩
    have hne : c ≠ a[i] := fun h => hc (h ▸ List.getElem_mem hi)
    rw [List.drop_append_of_le_length hi.le, List.drop_eq_getElem_cons hi, List.cons_append,
      List.isPrefixOf_cons_cons]
    simp [hne]
  have hsepb : sep.isPrefixOf (sep ++ b) = true :=
    List.isPrefixOf_iff_prefix.mpr (List.prefix_append sep b)
  rw [List.append_assoc, cut_append_of_not_isPrefixOf a (sep ++ b) sep hstart,
    cut_of_isPrefixOf hsepb, List.drop_left]
  simp

theorem trimPrefix_suffix (s pfx : List Char) : trimPrefix s pfx <:+ s := by
  unfold trimPrefix
  split
  · exact List.drop_suffix _ _
  · exact List.suffix_refl s

/-- A string without the separator keeps every prefix that ends with it. -/
theorem trimPrefix_of_cut_eq_none {s sep : List Char} (h : cut s sep = none) (pre : List Char) :
    trimPrefix s (pre ++ sep) = s := by
  rw [trimPrefix, not_isPrefixOf_of_cut_eq_none h pre]
  rfl

/-! ## 2. `net/url` -/

/-- The escapings of `net/url` that parsing uses. -/
inductive Encoding
  | path
  | host
  | zone
  | userPassword
  | fragment
  deriving DecidableEq, Repr

def ishex (c : Char) : Bool :=
  c.isDigit || ('a' ≤ c && c ≤ 'f') || ('A' ≤ c && c ≤ 'F')

/-- `strconv.Quote(s)`, for printable ASCII text without quotes or backslashes. -/
def quote (s : List Char) : String :=
  "\"" ++ String.ofList s ++ "\""

def unhex (c : Char) : Nat :=
  if c.isDigit then c.toNat - '0'.toNat
  else if 'a' ≤ c && c ≤ 'f' then c.toNat - 'a'.toNat + 10
  else if 'A' ≤ c && c ≤ 'F' then c.toNat - 'A'.toNat + 10
  else 0

/-- `shouldEscape(c, mode)`, for the modes above. -/
def shouldEscape (c : Char) (mode : Encoding) : Bool :=
  if c.isAlphanum then false
  else if (mode = .host ∨ mode = .zone) ∧
      c ∈ ['!', '$', '&', '\x27', '(', ')', '*', '+', ',', ';', '=', ':', '[', ']', '<', '>',
        '\x22'] then
    false
  else if c ∈ ['-', '_', '.', '~'] then false
  else if c ∈ ['$', '&', '+', ',', '/', ':', ';', '=', '?', '@'] then
    match mode with
    | .path => c = '?'
    | .userPassword => c = '@' || c = '/' || c = '?' || c = ':'
    | .fragment => false
    | _ => true
  else true

/-- `unescape(s, mode)`: `%XX` decoded, with the checks of each mode. -/
def unescape (mode : Encoding) : List Char → Except String (List Char)
  | [] => .ok []
  | '%' :: a :: b :: rest =>
    if !(ishex a && ishex b) then .error ("invalid URL escape " ++ quote ['%', a, b])
    -- a host may escape only bytes that are not ASCII, and `%25`
    else if mode = .host ∧ unhex a < 8 ∧ [a, b] ≠ ['2', '5'] then
      .error ("invalid URL escape " ++ quote ['%', a, b])
    else if mode = .zone ∧ [a, b] ≠ ['2', '5'] ∧ unhex a * 16 + unhex b ≠ 32 ∧
        shouldEscape (Char.ofNat (unhex a * 16 + unhex b)) .host then
      .error ("invalid URL escape " ++ quote ['%', a, b])
    else (unescape mode rest).map (Char.ofNat (unhex a * 16 + unhex b) :: ·)
  | '%' :: rest => .error ("invalid URL escape " ++ quote ('%' :: rest.take 2))
  | c :: rest =>
    if (mode = .host ∨ mode = .zone) ∧ c.toNat < 0x80 ∧ shouldEscape c mode then
      .error ("invalid character " ++ quote [c] ++ " in host name")
    else (unescape mode rest).map (c :: ·)

/-- `getscheme(rawurl)`: the scheme and the rest, scanned from `acc`, the scheme read so far. -/
def getscheme (rawurl : List Char) :
    List Char → List Char → Except String (List Char × List Char)
  | _, [] => .ok ([], rawurl)
  | acc, c :: rest =>
    if c.isAlpha then getscheme rawurl (acc ++ [c]) rest
    else if c.isDigit || c = '+' || c = '-' || c = '.' then
      if acc = [] then .ok ([], rawurl) else getscheme rawurl (acc ++ [c]) rest
    else if c = ':' then
      if acc = [] then .error "missing protocol scheme" else .ok (acc, rest)
    else .ok ([], rawurl)

/-- `validOptionalPort(port)`. -/
def validOptionalPort : List Char → Bool
  | [] => true
  | ':' :: ds => ds.all Char.isDigit
  | _ => false

/-- `strings.LastIndex(s, "]")`. -/
def lastIndexBracket (s : List Char) : Option Nat :=
  (s.reverse.idxOf? ']').map fun i => s.length - 1 - i

/-- `parseHost(host)`. -/
def parseHost (host : List Char) : Except String (List Char) :=
  if host.head? = some '[' then
    match lastIndexBracket host with
    | none => .error "missing \x27]\x27 in host"
    | some i =>
      if !validOptionalPort (host.drop (i + 1)) then
        .error ("invalid port " ++ quote (host.drop (i + 1)) ++ " after host")
      else
        -- a zone, introduced by `%25`, has escapes of its own
        match cut (host.take i) ['%', '2', '5'] with
        | some (h1, _) =>
          let zone := h1.length
          do
            let host1 ← unescape .host (host.take zone)
            let host2 ← unescape .zone ((host.take i).drop zone)
            let host3 ← unescape .host (host.drop i)
            pure (host1 ++ host2 ++ host3)
        | none => unescape .host host
  else unescape .host host

/-- `parseAuthority(authority)`: the host; the user info is checked and dropped. -/
def parseAuthority (authority : List Char) : Except String (List Char) :=
  match (authority.reverse.idxOf? '@') with
  | none => parseHost authority
  | some j =>
    let i := authority.length - 1 - j
    do
      let host ← parseHost (authority.drop (i + 1))
      let userinfo := authority.take i
      if userinfo.contains ':' then
        let (username, password) := urlSplit userinfo ':' true
        let _ ← unescape .userPassword username
        let _ ← unescape .userPassword password
      else
        let _ ← unescape .userPassword userinfo
      pure host

/-- The fields of a `*url.URL` read here. -/
structure URL where
  host : List Char
  path : List Char
  deriving DecidableEq, Repr

/-- The text of a `*url.Error` of the operation `parse`. -/
def urlError (rawurl : List Char) (err : String) : String :=
  "parse " ++ String.ofList rawurl ++ ": " ++ err

/-- `parse(rawurl, false)`, before its errors are wrapped. -/
def parseInner (rawurl : List Char) : Except String URL :=
  if rawurl = ['*'] then .ok ⟨[], ['*']⟩
  else do
    let (scheme, rest) ← getscheme rawurl [] rawurl
    let rest := (urlSplit rest '?' true).1
    -- a rootless path after a scheme is opaque
    if rest.head? ≠ some '/' ∧ scheme ≠ [] then pure ⟨[], []⟩
    else
      let (host, rest) ←
        if (scheme ≠ [] ∨ ['/', '/', '/'].isPrefixOf rest = false) ∧
            ['/', '/'].isPrefixOf rest = true then do
          let (authority, rest) := urlSplit (rest.drop 2) '/' false
          let host ← parseAuthority authority
          pure (host, rest)
        else pure ([], rest)
      let path ← unescape .path rest
      pure ⟨host, path⟩

/-- `parse(rawurl, false)`. -/
def parse (rawurl : List Char) : Except String URL :=
  (parseInner rawurl).mapError (urlError rawurl)

/-- `url.Parse(rawurl)`. -/
def urlParse (rawurl : List Char) : Except String URL := do
  let (u, frag) := urlSplit rawurl '#' true
  let url ← parse u
  if frag = [] then pure url
  else
    let _ ← (unescape .fragment frag).mapError (urlError rawurl)
    pure url

/-! ## 3. `net` -/

/-- The text of a `*net.AddrError`. -/
def addrError (addr : List Char) (why : String) : String :=
  if addr = [] then why else "address " ++ String.ofList addr ++ ": " ++ why

/-- `net.SplitHostPort(hostport)`. -/
def splitHostPort (hostport : List Char) : Except String (List Char × List Char) :=
  match hostport.reverse.idxOf? ':' with
  | none => .error (addrError hostport "missing port in address")
  | some j =>
    let i := hostport.length - 1 - j
    let checked (host : List Char) (j k : Nat) : Except String (List Char × List Char) :=
      if (hostport.drop j).contains '[' then
        .error (addrError hostport "unexpected \x27[\x27 in address")
      else if (hostport.drop k).contains ']' then
        .error (addrError hostport "unexpected \x27]\x27 in address")
      else .ok (host, hostport.drop (i + 1))
    if hostport.head? = some '[' then
      match hostport.idxOf? ']' with
      | none => .error (addrError hostport "missing \x27]\x27 in address")
      | some e =>
        if e + 1 = hostport.length then .error (addrError hostport "missing port in address")
        else if e + 1 = i then checked ((hostport.take e).drop 1) 1 (e + 1)
        else if hostport[e + 1]? = some ':' then
          .error (addrError hostport "too many colons in address")
        else .error (addrError hostport "missing port in address")
    else
      let host := hostport.take i
      if host.contains ':' then .error (addrError hostport "too many colons in address")
      else if host.contains '%' then .error (addrError hostport "missing brackets in address")
      else checked host 0 0

/-- `net.JoinHostPort(host, port)`. -/
def joinHostPort (host port : List Char) : List Char :=
  if host.contains ':' || host.contains '%' then '[' :: host ++ ']' :: ':' :: port
  else host ++ ':' :: port

example : urlParse "tcp://h:1/a%3Fb".toList = .ok ⟨"h:1".toList, "/a?b".toList⟩ := by decide

example : splitHostPort "[::1]:80".toList = .ok ("::1".toList, "80".toList) := by decide

end Reasoning.GoNet
