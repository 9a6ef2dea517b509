import Mathlib

/-!
# LexPath — lexical slash-separated paths

The lexical path functions of Go's `path/filepath` on a system whose separator is `/`, on paths
kept as their characters: `Clean`, `Join`, `Dir`, `Base`, `Rel`, and `strings.HasPrefix` and
`strings.HasSuffix`.  `Clean` is given by the rules its documentation states (drop empty and `.`
elements, cancel an element against a following `..`, drop `..` at the root); `Rel` works on the
elements of the cleaned paths as Go's loop over their bytes does.
-/

namespace LexPath

/-- The elements of a path: what lies between its slashes, without the empty ones and `.`. -/
def elems (p : List Char) : List (List Char) :=
  (p.splitOn '/').filter fun e => decide (e ≠ [] ∧ e ≠ ['.'])

/-- One element of `Clean`'s walk over a path; the stack holds the elements kept so far, the last
one on top. -/
def pushElem (rooted : Bool) (stk : List (List Char)) (e : List Char) : List (List Char) :=
  if e = ['.', '.'] then
    match stk with
    | top :: rest => if top = ['.', '.'] then e :: stk else rest
    -- `..` at the root is dropped; a relative path keeps a leading `..`
    | [] => if rooted then [] else [e]
  else e :: stk

def isRooted (p : List Char) : Bool :=
  p.head? = some '/'

/-- The path of the elements `es`, rooted or not; the empty relative path is `.`. -/
def render (rooted : Bool) (es : List (List Char)) : List Char :=
  if rooted then '/' :: List.intercalate ['/'] es
  else if es = [] then ['.'] else List.intercalate ['/'] es

/-- `filepath.Clean(p)`. -/
def clean (p : List Char) : List Char :=
  render (isRooted p) ((elems p).foldl (pushElem (isRooted p)) []).reverse

/-- `filepath.Join(a, b)`: the empty elements are dropped, the rest joined and cleaned. -/
def join (a b : List Char) : List Char :=
  if a ≠ [] then clean (a ++ '/' :: b)
  else if b ≠ [] then clean b
  else []

/-- `filepath.Join(elem...)`: the elements that are not empty, joined and cleaned. -/
def joinAll (elem : List (List Char)) : List Char :=
  match elem.filter (· ≠ []) with
  | [] => []
  | es => clean (List.intercalate ['/'] es)

/-- `filepath.Dir(p)`: the path up to its last slash, cleaned. -/
def dir (p : List Char) : List Char :=
  clean (p.reverse.dropWhile fun c => c != '/').reverse

/-- `filepath.Base(p)`: the last element, trailing slashes dropped; `/` for a path of slashes. -/
def base (p : List Char) : List Char :=
  if p = [] then ['.'] else
  let p := (p.reverse.dropWhile (· == '/')).reverse
  -- the last element
  let p := (p.reverse.takeWhile (· != '/')).reverse
  if p = [] then ['/'] else p

example : base "/d/a/.wh.b/".toList = ".wh.b".toList ∧ base "//".toList = ['/'] := by decide

/-- The elements of two paths after their longest common run of elements. -/
def dropCommon : List (List Char) → List (List Char) → List (List Char) × List (List Char)
  | b :: bs, t :: ts => if b = t then dropCommon bs ts else (b :: bs, t :: ts)
  | bs, ts => (bs, ts)

/-- `filepath.Rel(basepath, targpath)`. -/
def rel (basepath targpath : List Char) : Except String (List Char) :=
  let base := clean basepath
  let targ := clean targpath
  let err := "Rel: can't make " ++ String.ofList targpath ++ " relative to " ++
    String.ofList basepath
  if targ = base then .ok ['.']
  else if isRooted base ≠ isRooted targ then .error err
  else
    match dropCommon (elems base) (elems targ) with
    | (bs, ts) =>
      if bs.head? = some ['.', '.'] then .error err
      -- base elements left: go up before going down
      else .ok (List.intercalate ['/'] (List.replicate bs.length ['.', '.'] ++ ts))

/-- `strings.HasPrefix(s, pfx)`. -/
def hasPrefix (s pfx : List Char) : Bool :=
  pfx.isPrefixOf s

/-- `strings.HasSuffix(s, sfx)`. -/
def hasSuffix (s sfx : List Char) : Bool :=
  sfx.isSuffixOf s

example : clean "/d/../x//./y/".toList = "/x/y".toList := by decide

example : rel "/d".toList "/x/y".toList = .ok "../x/y".toList := by decide

/-! ## Cleaned paths are clean -/

/-- An element `Clean` can keep: not empty, not `.`, without a slash. -/
def Plain (e : List Char) : Prop :=
  e ≠ [] ∧ e ≠ ['.'] ∧ '/' ∉ e

theorem not_mem_of_mem_splitOn {a : Char} :
    ∀ {l e : List Char}, e ∈ l.splitOn a → a ∉ e
  | [], e, h => by
    rw [List.splitOn_nil, List.mem_singleton] at h
    subst h
    exact List.not_mem_nil
  | x :: xs, e, h => by
    have ih := @not_mem_of_mem_splitOn a xs
    rw [List.splitOn_cons_eq_if_modifyHead] at h
    split_ifs at h with hx
    · rcases List.mem_cons.1 h with rfl | h
      · exact List.not_mem_nil
      · exact ih h
    · -- the first piece gets `x` in front
      obtain ⟨hd, tl, hsplit⟩ := List.exists_cons_of_ne_nil (List.splitOn_ne_nil a xs)
      rw [hsplit, List.modifyHead_cons] at h
      rcases List.mem_cons.1 h with rfl | h
      · intro hmem
        rcases List.mem_cons.1 hmem with rfl | hmem
        · exact hx (beq_self_eq_true _)
        · exact ih (hsplit ▸ List.mem_cons_self) hmem
      · exact ih (hsplit ▸ List.mem_cons_of_mem hd h)

theorem plain_of_mem_elems {p e : List Char} (h : e ∈ elems p) : Plain e := by
  unfold elems at h
  rw [List.mem_filter, decide_eq_true_iff] at h
  exact ⟨h.2.1, h.2.2, not_mem_of_mem_splitOn h.1⟩

-- `Clean`'s stack holds plain elements, and no `..` when the path is rooted
theorem plain_pushElem {rooted : Bool} {stk : List (List Char)} {e : List Char}
    (hstk : ∀ x ∈ stk, Plain x ∧ (rooted → x ≠ ['.', '.'])) (he : Plain e) :
    ∀ x ∈ pushElem rooted stk e, Plain x ∧ (rooted → x ≠ ['.', '.']) := by
  intro x hx
  unfold pushElem at hx
  by_cases hdd : e = ['.', '.']
  · rw [if_pos hdd] at hx
    cases stk with
    | nil =>
      cases rooted
      · -- a relative path keeps a leading `..`
        rw [if_neg Bool.false_ne_true, List.mem_singleton] at hx
        subst hx
        exact ⟨he, fun h => by cases h⟩
      · rw [if_pos rfl] at hx
        cases hx
    | cons top rest =>
      dsimp only at hx
      by_cases htop : top = ['.', '.']
      · rw [if_pos htop] at hx
        rcases List.mem_cons.1 hx with rfl | hx
        · exact ⟨he, fun hr => absurd htop ((hstk top List.mem_cons_self).2 hr)⟩
        · exact hstk x hx
      · rw [if_neg htop] at hx
        exact hstk x (List.mem_cons_of_mem top hx)
  · rw [if_neg hdd] at hx
    rcases List.mem_cons.1 hx with rfl | hx
    · exact ⟨he, fun _ => hdd⟩
    · exact hstk x hx

theorem plain_foldl_pushElem (rooted : Bool) :
    ∀ (es stk : List (List Char)), (∀ x ∈ stk, Plain x ∧ (rooted → x ≠ ['.', '.'])) →
      (∀ e ∈ es, Plain e) →
      ∀ x ∈ es.foldl (pushElem rooted) stk, Plain x ∧ (rooted → x ≠ ['.', '.'])
  | [], _, hstk, _ => hstk
  | e :: es, _, hstk, hes =>
    plain_foldl_pushElem rooted es _ (plain_pushElem hstk (hes e List.mem_cons_self))
      (fun e' he' => hes e' (List.mem_cons_of_mem e he'))

theorem foldl_pushElem_of_ne (rooted : Bool) :
    ∀ (es stk : List (List Char)), (∀ e ∈ es, e ≠ ['.', '.']) →
      es.foldl (pushElem rooted) stk = es.reverse ++ stk
  | [], _, _ => rfl
  | e :: es, stk, h => by
    have hpush : pushElem rooted stk e = e :: stk := if_neg (h e List.mem_cons_self)
    rw [List.foldl_cons, hpush,
      foldl_pushElem_of_ne rooted es _ (fun e' he' => h e' (List.mem_cons_of_mem e he'))]
    simp

theorem elems_render_rooted {es : List (List Char)} (h : ∀ e ∈ es, Plain e) :
    elems (render true es) = es := by
  unfold elems render
  rw [if_pos rfl, List.splitOn_cons_eq_if_modifyHead, if_pos (beq_self_eq_true _),
    List.filter_cons, if_neg (by simp)]
  by_cases hes : es = []
  · subst hes
    rfl
  · rw [List.splitOn_intercalate '/' (fun e he => (h e he).2.2) hes]
    exact List.filter_eq_self.2 fun e he => by
      simpa using ⟨(h e he).1, (h e he).2.1⟩

theorem isRooted_render_false {es : List (List Char)} (h : ∀ e ∈ es, Plain e) :
    isRooted (render false es) = false := by
  unfold render isRooted
  rw [if_neg Bool.false_ne_true]
  split_ifs with hes
  · rfl
  · obtain ⟨e, es', rfl⟩ := List.exists_cons_of_ne_nil hes
    obtain ⟨c, e', rfl⟩ := List.exists_cons_of_ne_nil (h e List.mem_cons_self).1
    have hc : c ≠ '/' := fun hc => (h _ List.mem_cons_self).2.2 (hc ▸ List.mem_cons_self)
    cases es' <;> simp [List.intercalate, hc]

/-- A path that `Clean` makes absolute is clean: cleaning it again changes nothing. -/
theorem clean_clean_of_isRooted {p : List Char} (h : isRooted (clean p) = true) :
    clean (clean p) = clean p := by
  -- the stack `Clean` ends with
  obtain ⟨r, S, hS, hclean⟩ : ∃ (r : Bool) (S : List (List Char)), (∀ x ∈ S, Plain x ∧ (r → x ≠ ['.', '.'])) ∧
      clean p = render r S :=
    ⟨isRooted p, _, fun x hx => plain_foldl_pushElem (isRooted p) (elems p) []
      (fun _ hx => by cases hx) (fun e he => plain_of_mem_elems he) x (List.mem_reverse.1 hx), rfl⟩
  rw [hclean] at h ⊢
  cases r
  · -- a relative path cleans to a relative one
    rw [isRooted_render_false (fun x hx => (hS x hx).1)] at h
    cases h
  · unfold clean
    rw [h, elems_render_rooted (fun x hx => (hS x hx).1),
      foldl_pushElem_of_ne true S [] (fun x hx => (hS x hx).2 rfl), List.append_nil,
      List.reverse_reverse]

/-! ## Rooted paths of plain elements -/

/-- Elements each followed by a slash, then a last piece: the pieces joined by slashes. -/
theorem flatten_slash_append (es : List (List Char)) (p : List Char) :
    (es.map (· ++ ['/'])).flatten ++ p = List.intercalate ['/'] (es ++ [p]) := by
  induction es with
  | nil => simp
  | cons e es ih =>
    rw [List.map_cons, List.flatten_cons, List.append_assoc, ih, List.cons_append]
    obtain ⟨x, xs, hx⟩ := List.exists_cons_of_ne_nil (List.append_ne_nil_of_right_ne_nil es
      (List.cons_ne_nil p []))
    rw [hx, List.intercalate_cons_cons, List.append_assoc]

/-- A rooted path of plain elements other than `..` is clean. -/
theorem clean_render_true {es : List (List Char)} (h : ∀ e ∈ es, Plain e ∧ e ≠ ['.', '.']) :
    clean (render true es) = render true es := by
  have hr : isRooted (render true es) = true := rfl
  rw [clean, hr, elems_render_rooted (fun e he => (h e he).1),
    foldl_pushElem_of_ne true es [] (fun e he => (h e he).2), List.append_nil, List.reverse_reverse]

/-- The same elements each followed by a slash clean to that path: the trailing slash goes. -/
theorem clean_slash_flatten {es : List (List Char)} (h : ∀ e ∈ es, Plain e ∧ e ≠ ['.', '.']) :
    clean ('/' :: (es.map (· ++ ['/'])).flatten) = render true es := by
  have hflat : '/' :: (es.map (· ++ ['/'])).flatten = '/' :: List.intercalate ['/'] (es ++ [[]]) := by
    rw [← flatten_slash_append, List.append_nil]
  have hslash : ∀ e ∈ es ++ [[]], '/' ∉ e := by
    intro e he
    rcases List.mem_append.mp he with he | he
    · exact (h e he).1.2.2
    · rw [List.mem_singleton] at he
      subst he
      exact List.not_mem_nil
  -- the trailing empty element is not an element of the path
  have helems : elems ('/' :: List.intercalate ['/'] (es ++ [[]])) = es := by
    unfold elems
    rw [List.splitOn_cons_eq_if_modifyHead, if_pos (beq_self_eq_true _), List.filter_cons,
      if_neg (by simp), List.splitOn_intercalate '/' hslash (by simp), List.filter_append,
      List.filter_eq_self.2 fun e he => by simpa using ⟨(h e he).1.1, (h e he).1.2.1⟩]
    simp
  have hr : isRooted ('/' :: List.intercalate ['/'] (es ++ [[]])) = true := rfl
  rw [hflat, clean, hr, helems, foldl_pushElem_of_ne true es [] (fun e he => (h e he).2),
    List.append_nil, List.reverse_reverse]

end LexPath
