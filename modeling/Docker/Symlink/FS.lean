import Mathlib
import Docker.Reasoning.LexPath

/-!
# FS — `evalSymlinksInScope` of `pkg/symlink`

`evalSymlinksInScope(path, root)` resolves the symlinks of `path` inside `root`: it takes the
cleaned path below `root` component by component, keeps what it has resolved in a buffer `b`,
and puts a symlink's target back in front of what is left (restarting at `root` for an absolute
target).  The filesystem is what `os.Lstat` and `os.Readlink` answer (`FS`), errors included;
an error other than `IsNotExist` ends the call with that error.

The loop's guard against symlink cycles counts iterations, not symlinks: every component costs
one turn, and so does the empty one before the leading slash.  A path without a single symlink
therefore resolves to its clean form when it has at most 255 components
(`evalSymlinksInScope_plain`) and fails with "too many links" from 256 on
(`evalSymlinksInScope_too_many_components`).
-/

namespace Docker.Symlink

open LexPath

/-- A file `os.Lstat` finds; for a symlink, what `os.Readlink` then answers. -/
inductive FileKind
  | dir
  | reg
  | symlink (dest : Except (List Char) (List Char))
  deriving DecidableEq, Repr

/-- What `os.Lstat` answers at a path: an error that is not `IsNotExist`, nothing there (`none`),
or a file. -/
abbrev FS := List Char → Except (List Char) (Option FileKind)

def maxIter : Nat := 255

def errTooManyLinks (originalPath : List Char) : List Char :=
  "evalSymlinksInScope: too many links in ".toList ++ originalPath

def errNotInScope (path root : List Char) : List Char :=
  "evalSymlinksInScope: ".toList ++ path ++ " is not in ".toList ++ root

/-- `system.IsAbs` where the separator is `/`. -/
def isAbs (p : List Char) : Bool := p.head? = some '/'

/-- The component before the next slash, and what follows that slash. -/
def nextComponent (path : List Char) : List Char × List Char :=
  let i := path.idxOf '/'
  if i = path.length then (path, []) else (path.take i, path.drop (i + 1))

/-- The loop from turn `n` on, with `path` left to resolve and `b` resolved. -/
def evalLoop (fs : FS) (root originalPath : List Char) (n : Nat) (path b : List Char) :
    Except (List Char) (List Char) :=
  if path = [] then .ok (clean (root ++ clean ('/' :: b)))
  else if _hn : n > maxIter then .error (errTooManyLinks originalPath)
  else
    let (p, path) := nextComponent path
    if p = [] then evalLoop fs root originalPath (n + 1) path b
    else
      let cleanP := clean ('/' :: b ++ p)
      -- never `Lstat` the root itself
      if cleanP = ['/'] then evalLoop fs root originalPath (n + 1) path []
      else
        match fs (clean (root ++ cleanP)) with
        | .error err => .error err
        | .ok (some (.symlink (.error err))) => .error err
        -- it's a symlink, put it at the front of path
        | .ok (some (.symlink (.ok dest))) =>
          evalLoop fs root originalPath (n + 1) (dest ++ '/' :: path) (if isAbs dest then [] else b)
        -- not there, or not a symlink: accept it
        | .ok _ => evalLoop fs root originalPath (n + 1) path (b ++ p ++ ['/'])
termination_by maxIter + 1 - n
decreasing_by all_goals (simp only [maxIter] at _hn ⊢; omega)

def evalSymlinksInScope (fs : FS) (path root : List Char) : Except (List Char) (List Char) :=
  let root := clean root
  if path = root then .ok path
  else if !hasPrefix path root then .error (errNotInScope path root)
  else
    let originalPath := path
    let path := path.drop root.length
    let path := if root = ['/'] then '/' :: path else path
    if !hasPrefix path ['/'] then .error (errNotInScope path root)
    else evalLoop fs root originalPath 0 (clean path) []

/-! ## 1. One turn on a plain component -/

theorem nextComponent_slash (rest : List Char) : nextComponent ('/' :: rest) = ([], rest) := by
  simp [nextComponent]

theorem nextComponent_intercalate {c : List Char} (hc : '/' ∉ c) (cs : List (List Char)) :
    nextComponent (List.intercalate ['/'] (c :: cs)) = (c, List.intercalate ['/'] cs) := by
  cases cs with
  | nil =>
    rw [List.intercalate_singleton, nextComponent, List.idxOf_eq_length_iff.mpr hc]
    simp
  | cons d ds =>
    -- the first slash is the one after `c`
    have hi : (List.intercalate ['/'] (c :: d :: ds)).idxOf '/' = c.length := by
      rw [List.intercalate_cons_cons, List.append_assoc, List.idxOf_append_of_notMem hc]
      simp
    have hlen : c.length ≠ (List.intercalate ['/'] (c :: d :: ds)).length := by
      rw [List.intercalate_cons_cons]
      simp
    simp only [nextComponent, hi, if_neg hlen]
    rw [List.intercalate_cons_cons, List.drop_left' (show (c ++ ['/']).length = c.length + 1 by simp),
      List.append_assoc, List.take_left' rfl]

section NoSymlinks

variable {fs : FS} (hfs : ∀ p, ∃ k, fs p = .ok k ∧ ∀ dest, k ≠ some (.symlink dest))
  {root originalPath : List Char}

/-- Elements `Clean` keeps in a rooted path: plain, and not `..`. -/
def Kept (es : List (List Char)) : Prop := ∀ e ∈ es, Plain e ∧ e ≠ ['.', '.']

include hfs in
/-- With no symlink on the way, a plain component is appended to the buffer. -/
theorem evalLoop_cons {n : Nat} (hn : n ≤ maxIter) {c : List Char} {cs acc : List (List Char)}
    (hacc : Kept (acc ++ [c])) :
    evalLoop fs root originalPath n (List.intercalate ['/'] (c :: cs))
        (acc.map (· ++ ['/'])).flatten =
      evalLoop fs root originalPath (n + 1) (List.intercalate ['/'] cs)
        ((acc ++ [c]).map (· ++ ['/'])).flatten := by
  have hc := (hacc c (List.mem_append_right _ List.mem_cons_self)).1
  have hpath : List.intercalate ['/'] (c :: cs) ≠ [] := by
    cases cs <;> simp [List.intercalate_cons_cons, hc.1]
  -- the buffer and the component make a clean rooted path, not the root
  have hcleanP : clean ('/' :: (acc.map (· ++ ['/'])).flatten ++ c) = render true (acc ++ [c]) := by
    rw [List.cons_append, flatten_slash_append]
    exact clean_render_true hacc
  have hroot : render true (acc ++ [c]) ≠ ['/'] := by
    have hne : List.intercalate ['/'] (acc ++ [c]) ≠ [] := by
      rw [← flatten_slash_append]
      exact List.append_ne_nil_of_right_ne_nil _ hc.1
    intro h
    rw [render, if_pos rfl] at h
    exact hne (List.cons.inj h).2
  rw [evalLoop, if_neg hpath, dif_neg (by omega)]
  simp only [nextComponent_intercalate hc.2.2, if_neg hc.1]
  rw [hcleanP, if_neg hroot]
  -- `os.Lstat` answers, and not with a symlink
  obtain ⟨k, hk, hns⟩ := hfs (clean (root ++ render true (acc ++ [c])))
  rw [hk]
  split
  next err h => cases h
  next err h => cases Except.ok.inj h; exact absurd rfl (hns _)
  next dest h => cases Except.ok.inj h; exact absurd rfl (hns _)
  next => simp

include hfs in
/-- The components left all go into the buffer when the turns last, and the loop gives up on
the first turn past `maxIter` otherwise. -/
theorem evalLoop_plain (cs acc : List (List Char)) (n : Nat) (hk : Kept (acc ++ cs)) :
    evalLoop fs root originalPath n (List.intercalate ['/'] cs) (acc.map (· ++ ['/'])).flatten =
      if cs = [] ∨ n + cs.length ≤ maxIter + 1 then
        .ok (clean (root ++ clean ('/' :: ((acc ++ cs).map (· ++ ['/'])).flatten)))
      else .error (errTooManyLinks originalPath) := by
  induction cs generalizing acc n with
  | nil => rw [evalLoop, List.intercalate_nil, if_pos rfl, if_pos (.inl rfl), List.append_nil]
  | cons c cs ih =>
    by_cases hn : n ≤ maxIter
    · have hacc : Kept (acc ++ [c]) := fun e he => hk e (by
        rcases List.mem_append.mp he with he | he
        · exact List.mem_append_left _ he
        · exact List.mem_append_right _ (List.mem_cons.mpr (.inl (List.mem_singleton.mp he))))
      rw [evalLoop_cons hfs hn hacc, ih (acc ++ [c]) (n + 1) (by simpa using hk)]
      simp only [List.append_assoc, List.singleton_append, List.length_cons, reduceCtorEq,
        false_or]
      by_cases hcs : cs = []
      · subst hcs
        simp only [List.length_nil, true_or, if_true]
        rw [if_pos (by omega)]
      · simp only [hcs, false_or]
        congr 1
        apply propext
        omega
    · -- past the last turn with a component still to read
      have hpath : List.intercalate ['/'] (c :: cs) ≠ [] := by
        have hc := (hk c (List.mem_append_right _ List.mem_cons_self)).1.1
        cases cs <;> simp [List.intercalate_cons_cons, hc]
      rw [evalLoop, if_neg hpath, dif_pos (by omega), if_neg]
      simp only [reduceCtorEq, List.length_cons, false_or]
      omega

include hfs in
/-- `evalLoop_plain` from an empty buffer. -/
theorem evalLoop_plain_nil (cs : List (List Char)) (n : Nat) (hk : Kept cs) :
    evalLoop fs root originalPath n (List.intercalate ['/'] cs) [] =
      if cs = [] ∨ n + cs.length ≤ maxIter + 1 then
        .ok (clean (root ++ clean ('/' :: (cs.map (· ++ ['/'])).flatten)))
      else .error (errTooManyLinks originalPath) := by
  simpa using evalLoop_plain hfs cs [] n (by simpa using hk)

/-! ## 2. A path without symlinks -/

variable (hroot : clean root = root) (hslash : root ≠ ['/']) {cs : List (List Char)} (hcs : Kept cs)

include hroot hslash hcs in
/-- The loop starts on the cleaned path below `root`, after its leading slash. -/
theorem evalSymlinksInScope_eq_evalLoop :
    evalSymlinksInScope fs (root ++ '/' :: List.intercalate ['/'] cs) root =
      evalLoop fs root (root ++ '/' :: List.intercalate ['/'] cs) 0 ('/' :: List.intercalate ['/'] cs) [] := by
  have hlong : root ++ '/' :: List.intercalate ['/'] cs ≠ root := by
    intro h
    have := congrArg List.length h
    simp at this
  have hpre : hasPrefix (root ++ '/' :: List.intercalate ['/'] cs) root = true :=
    List.isPrefixOf_iff_prefix.mpr (List.prefix_append _ _)
  have hclean : clean ('/' :: List.intercalate ['/'] cs) = '/' :: List.intercalate ['/'] cs :=
    clean_render_true hcs
  simp only [evalSymlinksInScope, hroot, hlong, if_false, hpre, Bool.not_true, Bool.false_eq_true,
    List.drop_left, hslash]
  rw [if_neg (by simp [hasPrefix]), hclean]

include hroot hslash hcs in
/-- The first turn reads the empty component before the leading slash. -/
theorem evalSymlinksInScope_eq_evalLoop_one :
    evalSymlinksInScope fs (root ++ '/' :: List.intercalate ['/'] cs) root =
      evalLoop fs root (root ++ '/' :: List.intercalate ['/'] cs) 1 (List.intercalate ['/'] cs) [] := by
  rw [evalSymlinksInScope_eq_evalLoop hroot hslash hcs, evalLoop, if_neg (by simp),
    dif_neg (by simp [maxIter])]
  simp only [nextComponent_slash, if_true]

include hfs hroot hslash hcs in
/-- With at most `maxIter` components and no symlink, the result is the path, cleaned. -/
theorem evalSymlinksInScope_plain (hlen : cs.length ≤ maxIter) :
    evalSymlinksInScope fs (root ++ '/' :: List.intercalate ['/'] cs) root =
      .ok (clean (root ++ '/' :: List.intercalate ['/'] cs)) := by
  rw [evalSymlinksInScope_eq_evalLoop_one hroot hslash hcs, evalLoop_plain_nil hfs cs 1 hcs,
    if_pos (.inr (by omega)), clean_slash_flatten hcs]
  rfl

include hfs hroot hslash hcs in
theorem evalSymlinksInScope_too_many_components (hlen : maxIter < cs.length) :
    evalSymlinksInScope fs (root ++ '/' :: List.intercalate ['/'] cs) root =
      .error (errTooManyLinks (root ++ '/' :: List.intercalate ['/'] cs)) := by
  have hne : cs ≠ [] := by
    rintro rfl
    simp at hlen
  rw [evalSymlinksInScope_eq_evalLoop_one hroot hslash hcs, evalLoop_plain_nil hfs cs 1 hcs,
    if_neg (by rw [not_or]; exact ⟨hne, by omega⟩)]

end NoSymlinks

/-- `/r/a/a/…/a` with 256 components `a` under root `/r`, on a filesystem holding nothing. -/
theorem evalSymlinksInScope_too_many_components_256 :
    (∀ p, ∃ k, (fun _ => .ok none : FS) p = .ok k ∧ ∀ dest, k ≠ some (.symlink dest)) ∧
      clean "/r".toList = "/r".toList ∧
      "/r".toList ≠ ['/'] ∧ Kept (List.replicate 256 ['a']) ∧
      maxIter < (List.replicate 256 ['a']).length ∧
      evalSymlinksInScope (fun _ => .ok none)
          ("/r".toList ++ '/' :: List.intercalate ['/'] (List.replicate 256 ['a'])) "/r".toList =
        .error (errTooManyLinks ("/r".toList ++ '/' :: List.intercalate ['/'] (List.replicate 256 ['a']))) := by
  have hfs : ∀ p, ∃ k, (fun _ => .ok none : FS) p = .ok k ∧ ∀ dest, k ≠ some (.symlink dest) :=
    fun _ => ⟨none, rfl, fun _ h => by cases h⟩
  have hroot : clean "/r".toList = "/r".toList := by decide
  have hslash : "/r".toList ≠ ['/'] := by decide
  have hcs : Kept (List.replicate 256 ['a']) := by
    intro e he
    rw [List.eq_of_mem_replicate he]
    exact ⟨⟨by decide, by decide, by decide⟩, by decide⟩
  have hlen : maxIter < (List.replicate 256 ['a']).length := by
    rw [List.length_replicate]
    decide
  exact ⟨hfs, hroot, hslash, hcs, hlen,
    evalSymlinksInScope_too_many_components hfs hroot hslash hcs hlen⟩

end Docker.Symlink
