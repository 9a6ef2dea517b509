import Mathlib
import Docker.Reasoning.Regex

/-!
# Reference — repository names of the `reference` package

`WithName` normalizes a repository name (`normalize`: drop the default hostname `docker.io` and
the `library/` prefix of official images), refuses 64-digit hexadecimal names, and validates what
is left against the name grammar of the vendored `distribution/reference` package.  `FullName`,
`Hostname` and `RemoteName` split the stored name again with `splitHostname`.

The distribution grammar is written in `regexp.go` with combinators that build regexp source
text; here the same combinators build `Reasoning.Regex` terms, and `MatchString` is
`Regex.search`.  Every operand the combinators receive there is one atom or one group, so
concatenating their text is `seq`.

Normalizing and splitting again does not always give back the split of the raw name: a remote
name that starts with `library/` and has a further `/` loses the prefix, and the shortened name is
read as an unofficial repository (`withName_reinterprets_library_paths`).  The split is kept, and
normalizing is idempotent, for every name outside those shapes (`normalize_keeps_split`).

Text is a list of characters.  `strings.ToLower` is `Char.toLower`, which lowers ASCII letters
only: names with other letters fail the grammar either way.
-/

namespace Docker.Reference

open Reasoning

/-! ## 1. The name grammar of `distribution/reference` -/

-- `expression`: the operands one after the other
def expression : List (Regex Char) → Regex Char
  | [] => .eps
  | [r] => r
  | r :: rs => .seq r (expression rs)

-- `optional`, `repeated`, `capture` (a group, for matching), `anchored`, and `literal`
def optional (res : List (Regex Char)) : Regex Char := .opt (expression res)

def repeated (res : List (Regex Char)) : Regex Char := .plus (expression res)

def capture (res : List (Regex Char)) : Regex Char := expression res

def anchored (res : List (Regex Char)) : Regex Char := .seq .bol (.seq (expression res) .eol)

def literal (s : List Char) : Regex Char := .word s

-- `[a-z0-9]`, `[a-zA-Z0-9]`, `[0-9]`
def isLowerAlnum (c : Char) : Bool := ('a' ≤ c && c ≤ 'z') || ('0' ≤ c && c ≤ '9')

def isAlnum (c : Char) : Bool := isLowerAlnum c || ('A' ≤ c && c ≤ 'Z')

def isDigit (c : Char) : Bool := '0' ≤ c && c ≤ '9'

-- `[a-z0-9]+`
def alphaNumericRegexp : Regex Char := .plus (.sat isLowerAlnum)

-- `(?:[._]|__|[-]*)`
def separatorRegexp : Regex Char :=
  .alt (.sat fun c => c = '.' || c = '_') (.alt (.word "__".toList) (.star (.lit '-')))

def nameComponentRegexp : Regex Char :=
  expression [alphaNumericRegexp, optional [repeated [separatorRegexp, alphaNumericRegexp]]]

-- `(?:[a-zA-Z0-9]|[a-zA-Z0-9][a-zA-Z0-9-]*[a-zA-Z0-9])`
def hostnameComponentRegexp : Regex Char :=
  .alt (.sat isAlnum)
    (.seq (.sat isAlnum) (.seq (.star (.sat fun c => isAlnum c || c = '-')) (.sat isAlnum)))

def hostnameRegexp : Regex Char :=
  expression [hostnameComponentRegexp, optional [repeated [literal ".".toList, hostnameComponentRegexp]],
    optional [literal ":".toList, .plus (.sat isDigit)]]

def anchoredNameRegexp : Regex Char :=
  anchored [optional [capture [hostnameRegexp], literal "/".toList],
    capture [nameComponentRegexp, optional [repeated [literal "/".toList, nameComponentRegexp]]]]

def nameTotalLengthMax : Nat := 255

def errNameTooLong : List Char := "repository name must not be more than 255 characters".toList

def errReferenceInvalidFormat : List Char := "invalid reference format".toList

/-- `len(name)`, in bytes. -/
def byteLength (s : List Char) : Nat := (s.map Char.utf8Size).sum

/-- `distreference.WithName`; the reference is its name. -/
def distWithName (name : List Char) : Except (List Char) (List Char) :=
  if byteLength name > nameTotalLengthMax then .error errNameTooLong
  else if !(anchoredNameRegexp.search name) then .error errReferenceInvalidFormat
  else .ok name

/-! ## 2. `reference.go` -/

def defaultHostname : List Char := "docker.io".toList

def legacyDefaultHostname : List Char := "index.docker.io".toList

def defaultRepoPrefix : List Char := "library/".toList

/-- A first path component that names a registry: it has a `.` or a `:`, or is `localhost`. -/
def isHostname (c : List Char) : Bool :=
  c.any (fun ch => ch = '.' || ch = ':') || c = "localhost".toList

def splitHostname (name : List Char) : List Char × List Char :=
  let i := name.idxOf '/'
  let (hostname, remoteName) :=
    if i = name.length || !isHostname (name.take i) then (defaultHostname, name)
    else (name.take i, name.drop (i + 1))
  let hostname := if hostname = legacyDefaultHostname then defaultHostname else hostname
  let remoteName :=
    if hostname = defaultHostname && !remoteName.contains '/' then defaultRepoPrefix ++ remoteName
    else remoteName
  (hostname, remoteName)

def errLowercase : List Char :=
  "invalid reference format: repository name must be lowercase".toList

def normalize (name : List Char) : Except (List Char) (List Char) :=
  let (host, remoteName) := splitHostname name
  if remoteName.map Char.toLower ≠ remoteName then .error errLowercase
  else if host = defaultHostname then
    if defaultRepoPrefix.isPrefixOf remoteName then .ok (remoteName.drop defaultRepoPrefix.length)
    else .ok remoteName
  else .ok name

/-- `v1.ValidateID`'s pattern `^([a-f0-9]{64})$`. -/
def isValidHex (s : List Char) : Bool :=
  s.length = 64 && s.all fun c => ('a' ≤ c && c ≤ 'f') || ('0' ≤ c && c ≤ '9')

def validateName (name : List Char) : Except (List Char) Unit :=
  if isValidHex name then
    .error ("Invalid repository name (".toList ++ name ++
      "), cannot specify 64-byte hexadecimal strings".toList)
  else .ok ()

/-- `WithName`; the named reference is its `Name()`. -/
def withName (name : List Char) : Except (List Char) (List Char) :=
  match normalize name with
  | .error e => .error e
  | .ok name =>
    match validateName name with
    | .error e => .error e
    | .ok () => distWithName name

def fullName (name : List Char) : List Char :=
  (splitHostname name).1 ++ "/".toList ++ (splitHostname name).2

/-! ## 3. `splitHostname` on the shapes of a name -/

theorem defaultHostname_ne_legacy : defaultHostname ≠ legacyDefaultHostname := by decide

/-- One path component: an official image on Docker Hub. -/
theorem splitHostname_of_not_mem {x : List Char} (h : '/' ∉ x) :
    splitHostname x = (defaultHostname, defaultRepoPrefix ++ x) := by
  simp [splitHostname, h, defaultHostname_ne_legacy]

/-- Several components, the first naming no registry: a user repository on Docker Hub. -/
theorem splitHostname_of_not_isHostname {x : List Char} (hx : '/' ∈ x)
    (hfirst : isHostname (x.take (x.idxOf '/')) = false) :
    splitHostname x = (defaultHostname, x) := by
  simp [splitHostname, hfirst, hx, defaultHostname_ne_legacy]

/-- A Docker Hub remote name always has a `/`: the `library/` prefix is added when it has none. -/
theorem mem_of_splitHostname_default {name : List Char}
    (h : (splitHostname name).1 = defaultHostname) : '/' ∈ (splitHostname name).2 := by
  simp only [splitHostname] at h ⊢
  generalize (if name.idxOf '/' = name.length || !isHostname (name.take (name.idxOf '/')) then
    (defaultHostname, name) else (name.take (name.idxOf '/'), name.drop (name.idxOf '/' + 1))) = p at h ⊢
  obtain ⟨host, remote⟩ := p
  dsimp only at h ⊢
  rw [h]
  simp only [decide_true, Bool.true_and]
  by_cases hr : '/' ∈ remote
  · have : remote.contains '/' = true := by simpa using hr
    rw [this]
    exact hr
  · have : remote.contains '/' = false := by
      rw [Bool.eq_false_iff]
      simpa using hr
    rw [this]
    exact List.mem_append_left _ (by decide)

/-! ## 4. `normalize` -/

/-- What a successful `normalize` returns: the name itself off Docker Hub, and the remote name,
without `library/`, on it. -/
theorem normalize_eq_ok {name m : List Char} (h : normalize name = .ok m) :
    (splitHostname name).2.map Char.toLower = (splitHostname name).2 ∧
      ((splitHostname name).1 = defaultHostname →
        (defaultRepoPrefix <+: (splitHostname name).2 →
          m = (splitHostname name).2.drop defaultRepoPrefix.length) ∧
        (¬ defaultRepoPrefix <+: (splitHostname name).2 → m = (splitHostname name).2)) ∧
      ((splitHostname name).1 ≠ defaultHostname → m = name) := by
  unfold normalize at h
  generalize splitHostname name = p at h ⊢
  obtain ⟨host, remote⟩ := p
  dsimp only at h ⊢
  split at h
  · cases h
  next hlow =>
    rw [not_not] at hlow
    refine ⟨hlow, fun hhost => ?_, fun hhost => ?_⟩
    · rw [if_pos hhost] at h
      split at h
      next hpre =>
        cases h
        exact ⟨fun _ => rfl, fun hn => absurd (List.isPrefixOf_iff_prefix.mp hpre) hn⟩
      next hpre =>
        cases h
        exact ⟨fun hp => absurd (List.isPrefixOf_iff_prefix.mpr hp) hpre, fun _ => rfl⟩
    · rw [if_neg hhost] at h
      cases h
      rfl

/-- Normalizing keeps the split of the raw name, and is then idempotent, when the name has an
explicit registry other than Docker Hub, or normalizes to one component, or its remote name does
not start with `library/` and its first component names no registry. -/
theorem normalize_keeps_split {name m : List Char} (h : normalize name = .ok m)
    (hkeep : (splitHostname name).1 ≠ defaultHostname ∨ '/' ∉ m ∨
      (¬ defaultRepoPrefix <+: (splitHostname name).2 ∧ isHostname (m.take (m.idxOf '/')) = false)) :
    splitHostname m = splitHostname name ∧ normalize m = .ok m := by
  obtain ⟨hlow, hdef, hother⟩ := normalize_eq_ok h
  by_cases hhost : (splitHostname name).1 = defaultHostname
  · have hslash := mem_of_splitHostname_default hhost
    obtain ⟨hpre, hnpre⟩ := hdef hhost
    rcases hkeep with hne | hm | ⟨hnp, hfirst⟩
    · exact absurd hhost hne
    · -- one component left: the remote name was `library/` and that component
      have hp : defaultRepoPrefix <+: (splitHostname name).2 := by
        by_contra hn
        exact hm (hnpre hn ▸ hslash)
      obtain ⟨t, ht⟩ := hp
      have hmt : m = t := by rw [hpre ⟨t, ht⟩, ← ht, List.drop_left]
      subst hmt
      have hsplit : splitHostname m = splitHostname name := by
        rw [splitHostname_of_not_mem hm, ht, ← hhost]
      refine ⟨hsplit, ?_⟩
      have hpre' : defaultRepoPrefix.isPrefixOf (defaultRepoPrefix ++ m) = true :=
        List.isPrefixOf_iff_prefix.mpr (List.prefix_append _ _)
      simp only [normalize, hsplit, hlow, ne_eq, not_true_eq_false, if_false, hhost, if_true]
      rw [← ht, hpre', if_pos rfl, List.drop_left]
    · -- the remote name is kept, and read back as a user repository
      have hmr : m = (splitHostname name).2 := hnpre hnp
      subst hmr
      have hsplit := splitHostname_of_not_isHostname hslash hfirst
      refine ⟨hsplit.trans (Prod.ext hhost.symm rfl), ?_⟩
      have hnp' : defaultRepoPrefix.isPrefixOf (splitHostname name).2 = false :=
        Bool.eq_false_iff.mpr fun hp => hnp (List.isPrefixOf_iff_prefix.mp hp)
      simp only [normalize, hsplit, hlow, ne_eq, not_true_eq_false, if_false, if_true, hnp',
        Bool.false_eq_true]
  · have hmn := hother hhost
    subst hmn
    exact ⟨rfl, h⟩

example : withName "localhost:5000/foo/bar".toList = .ok "localhost:5000/foo/bar".toList := by
  decide

/-! ## 5. Where the split is lost -/

/-- A remote name `library/a/b` loses its prefix and is read back as the user repository `a/b`;
and `docker.io/library/library/foo` normalizes to `library/foo`, which normalizes again to `foo`. -/
theorem withName_reinterprets_library_paths :
    withName "library/a/b".toList = .ok "a/b".toList ∧
      splitHostname "library/a/b".toList = (defaultHostname, "library/a/b".toList) ∧
      splitHostname "a/b".toList = (defaultHostname, "a/b".toList) ∧
      withName "docker.io/library/library/foo".toList = .ok "library/foo".toList ∧
      withName "library/foo".toList = .ok "foo".toList := by
  decide

end Docker.Reference
