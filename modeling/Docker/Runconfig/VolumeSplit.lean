import Mathlib

/-!
# VolumeSplit — `volumeSplitN`, the colon split of a volume spec

`volumeSplitN(raw, n)` scans `raw` once.  A `:` separates two parts unless it ends a drive
letter: a letter at index 0, or a letter after `:` or `\`.  At most `n` parts are cut (`n = -1`:
no limit); when the limit is hit, the rest of `raw` goes back onto the last part with its colon.

The parts cut so far, each with its colon, spell the prefix of `raw` the loop has passed
(`Scanned`).  So joining the parts with `:` gives `raw` back, unless the loop cut at the last
character: then the empty last part is never appended, and the colon is lost
(`volumeSplitN_spec`, `volumeSplitN_drops_trailing_colon`).  No call with `n = -1` or `n ≥ 1`
indexes out of range.

Go indexes the bytes of `raw`.  Every byte the scanner compares with is ASCII, and no byte of a
multi-byte character is, so scanning characters makes the same decisions.
-/

namespace Docker.Runconfig

/-- `(c >= 'A' && c <= 'Z') || (c >= 'a' && c <= 'z')`. -/
def isLetter (c : Char) : Bool :=
  ('A' ≤ c && c ≤ 'Z') || ('a' ≤ c && c ≤ 'z')

/-- Whether the `:` at `right ≥ 1` separates two parts.  (The defaults of `getD` are never
read: the loop starts at `right = 1`.) -/
def separates (raw : List Char) (right : Nat) : Bool :=
  let potentialDriveLetter := raw.getD (right - 1) ' '
  if isLetter potentialDriveLetter then
    if right > 1 then
      let beforePotentialDriveLetter := raw.getD (right - 2) ' '
      -- only `:` or `\` make the letter a drive letter
      beforePotentialDriveLetter ≠ ':' && beforePotentialDriveLetter ≠ '\\'
    else false
  else true

/-- The variables of `volumeSplitN` that its loop updates. -/
structure SplitState where
  array : List (List Char)
  numberOfParts : Nat
  left : Nat
  deriving DecidableEq, Repr

/-- `var array []string; numberOfParts := 0; left := 0`. -/
def SplitState.init : SplitState :=
  { array := [], numberOfParts := 0, left := 0 }

/-- `array = append(array, raw[left:right]); left = right + 1; numberOfParts++`, which both
separator branches of the loop run. -/
def SplitState.cut (st : SplitState) (raw : List Char) (right : Nat) : SplitState :=
  { array := st.array ++ [(raw.drop st.left).take (right - st.left)],
    numberOfParts := st.numberOfParts + 1, left := right + 1 }

/-- The loop `for right := 1; right < len(raw); right++`, from `right` on, over
`rest = raw[right:]`. -/
def scan (raw : List Char) (n : Int) : Nat → List Char → SplitState → SplitState
  | _, [], st => st
  | right, c :: rest, st =>
    -- stop parsing if reached maximum number of parts
    if 0 ≤ n ∧ n ≤ st.numberOfParts then st
    else if c ≠ ':' then scan raw n (right + 1) rest st
    else if separates raw right then scan raw n (right + 1) rest (st.cut raw right)
    else scan raw n (right + 1) rest st

/-- `volumeSplitN`; `none` is the panic of `array[n-1]` out of range. -/
def volumeSplitN (raw : List Char) (n : Int) : Option (List (List Char)) :=
  match raw with
  | [] => some []
  | c :: rest =>
    if c = ':' then some [] else
    let st := scan raw n 1 rest SplitState.init
    -- need to take care of the last part
    if st.left < raw.length then
      if 0 ≤ n ∧ n ≤ st.numberOfParts then
        -- `array[n-1] += raw[left-1:]`
        if n < 1 then none else
        match st.array[(n - 1).toNat]? with
        | none => none
        | some part => some (st.array.set (n - 1).toNat (part ++ raw.drop (st.left - 1)))
      else some (st.array ++ [raw.drop st.left])
    else some st.array

/-- `strings.Join(parts, ":")`. -/
def join (parts : List (List Char)) : List Char :=
  [':'].intercalate parts

/-! ## 1. Joining parts -/

theorem join_append_singleton (init : List (List Char)) (x : List Char) :
    join (init ++ [x]) = init.flatMap (· ++ [':']) ++ x := by
  induction init with
  | nil => exact List.intercalate_singleton
  | cons p ps ih =>
    unfold join at ih ⊢
    rw [List.cons_append, List.flatMap_cons]
    cases hps : ps ++ [x] with
    | nil => simp at hps
    | cons q qs =>
      rw [List.intercalate_cons_cons, ← hps, ih]
      simp only [List.append_assoc]

theorem join_append_colon {parts : List (List Char)} (h : parts ≠ []) :
    join parts ++ [':'] = parts.flatMap (· ++ [':']) := by
  rw [← List.dropLast_append_getLast h, join_append_singleton, List.flatMap_append,
    List.flatMap_singleton, List.append_assoc]

/-- The prefix the loop has passed ends in the colon of the last cut, so putting the rest back
from that colon gives `raw`. -/
theorem append_drop_pred {raw a : List Char} {left : Nat} (hle : left ≤ raw.length)
    (h : a ++ [':'] = raw.take left) : a ++ raw.drop (left - 1) = raw := by
  have hlen : a.length = left - 1 := by
    have := congrArg List.length h
    simp only [List.length_append, List.length_singleton, List.length_take] at this
    omega
  have hraw : raw = a ++ ':' :: raw.drop left := by
    calc raw = raw.take left ++ raw.drop left := (List.take_append_drop left raw).symm
      _ = a ++ ':' :: raw.drop left := by rw [← h, List.append_assoc]; rfl
  calc a ++ raw.drop (left - 1) = a ++ (a ++ ':' :: raw.drop left).drop (left - 1) := by
        rw [← hraw]
    _ = a ++ ':' :: raw.drop left := by rw [List.drop_left' hlen]
    _ = raw := hraw.symm

/-! ## 2. The loop -/

/-- What the loop keeps: the parts cut so far, each followed by its colon, spell `raw[:left]`;
there are `numberOfParts` of them, and no more than `n` when `n ≥ 0`. -/
structure Scanned (raw : List Char) (n : Int) (st : SplitState) : Prop where
  left_le : st.left ≤ raw.length
  spell : st.array.flatMap (· ++ [':']) = raw.take st.left
  count : st.array.length = st.numberOfParts
  bound : 0 ≤ n → (st.numberOfParts : Int) ≤ n

theorem scanned_init (raw : List Char) (n : Int) : Scanned raw n SplitState.init :=
  ⟨Nat.zero_le _, rfl, rfl, fun h => h⟩

/-- A cut at a colon below the limit. -/
theorem Scanned.cut {raw rest : List Char} {n : Int} {st : SplitState} {right : Nat}
    (hs : Scanned raw n st) (hleft : st.left ≤ right) (hc : raw.drop right = ':' :: rest)
    (hlim : ¬(0 ≤ n ∧ n ≤ st.numberOfParts)) : Scanned raw n (st.cut raw right) where
  left_le := by
    have := congrArg List.length hc
    simp only [List.length_drop, List.length_cons] at this
    simp only [SplitState.cut]
    omega
  spell := by
    have h₁ : raw.take right = raw.take st.left ++ (raw.drop st.left).take (right - st.left) := by
      rw [← List.take_add, Nat.add_sub_cancel' hleft]
    have h₂ : raw.take (right + 1) = raw.take right ++ [':'] := by
      rw [List.take_add, hc]
      rfl
    simp only [SplitState.cut, List.flatMap_append, List.flatMap_singleton, hs.spell, h₂, h₁,
      List.append_assoc]
  count := by simp only [SplitState.cut, List.length_append, List.length_singleton, hs.count]
  bound h0 := by
    have : ¬n ≤ st.numberOfParts := fun h => hlim ⟨h0, h⟩
    simp only [SplitState.cut]
    omega

/-- The loop keeps `Scanned`, from any `right` at or after `left`. -/
theorem scanned_scan (raw : List Char) (n : Int) :
    ∀ (rest : List Char) (right : Nat) (st : SplitState), raw.drop right = rest →
      st.left ≤ right → Scanned raw n st → Scanned raw n (scan raw n right rest st) := by
  intro rest
  induction rest with
  | nil => exact fun _ _ _ _ hs => hs
  | cons c rest ih =>
    intro right st hdrop hleft hs
    have hnext : raw.drop (right + 1) = rest := by rw [← List.drop_drop, hdrop]; rfl
    unfold scan
    split_ifs with hlim hc hsep
    · exact hs
    · exact ih (right + 1) st hnext (by omega) hs
    · -- a separator colon below the limit is cut
      have hc' : c = ':' := of_not_not hc
      exact ih (right + 1) _ hnext le_rfl (hs.cut hleft (by rw [hdrop, hc']) hlim)
    · exact ih (right + 1) st hnext (by omega) hs

/-! ## 3. What `volumeSplitN` returns -/

/-- For `n = -1` or `n ≥ 1` and `raw` not empty and not starting with `:`, `volumeSplitN` does
not panic, returns at most `n` parts when `n ≥ 0`, and joining them gives `raw` back, except
that the last colon is lost when the loop cut at the last character. -/
theorem volumeSplitN_spec (raw : List Char) (n : Int) (hraw : raw ≠ [])
    (hhead : raw.head? ≠ some ':') (hn : n = -1 ∨ 1 ≤ n) :
    ∃ parts, volumeSplitN raw n = some parts ∧ (0 ≤ n → (parts.length : Int) ≤ n) ∧
      join parts = if (scan raw n 1 (raw.drop 1) SplitState.init).left = raw.length
        then raw.dropLast else raw := by
  obtain ⟨c, rest, rfl⟩ := List.exists_cons_of_ne_nil hraw
  have hc : c ≠ ':' := fun h => hhead (by rw [h]; rfl)
  have hs := scanned_scan (c :: rest) n rest 1 SplitState.init rfl (Nat.zero_le 1)
    (scanned_init _ n)
  simp only [volumeSplitN, hc, if_false, List.drop_succ_cons, List.drop_zero]
  generalize scan (c :: rest) n 1 rest SplitState.init = st at hs ⊢
  by_cases hlt : st.left < (c :: rest).length
  · rw [if_pos hlt, if_neg (Nat.ne_of_lt hlt)]
    by_cases hlim : 0 ≤ n ∧ n ≤ st.numberOfParts
    · -- the limit is hit: there are exactly `n ≥ 1` parts, and the rest goes onto the last
      rw [if_pos hlim]
      have hn1 : 1 ≤ n := hn.resolve_left (by rintro rfl; exact absurd hlim.1 (by decide))
      have hcount : (st.array.length : Int) = n := by
        have := hs.bound hlim.1
        rw [hs.count]
        omega
      have hne : st.array ≠ [] := by
        intro h
        rw [h, List.length_nil] at hcount
        omega
      obtain ⟨init, last, harr⟩ : ∃ init last, st.array = init ++ [last] :=
        ⟨_, _, (List.dropLast_append_getLast hne).symm⟩
      have hi : (n - 1).toNat = init.length := by
        rw [harr, List.length_append, List.length_singleton] at hcount
        omega
      have hspell := hs.spell
      rw [harr, List.flatMap_append, List.flatMap_singleton, ← List.append_assoc] at hspell
      rw [if_neg (by omega), hi, harr, List.getElem?_append_right le_rfl, Nat.sub_self]
      refine ⟨_, rfl, fun _ => ?_, ?_⟩
      · rw [List.set_append_right _ _ le_rfl, Nat.sub_self]
        simp only [List.length_append, List.set_cons_zero, List.length_singleton]
        rw [harr, List.length_append, List.length_singleton] at hcount
        omega
      · rw [List.set_append_right _ _ le_rfl, Nat.sub_self]
        simp only [List.set_cons_zero]
        rw [join_append_singleton, ← List.append_assoc]
        exact append_drop_pred hs.left_le hspell
    · -- below the limit the rest is one more part
      rw [if_neg hlim]
      refine ⟨_, rfl, fun h0 => ?_, ?_⟩
      · have : ¬n ≤ st.numberOfParts := fun h => hlim ⟨h0, h⟩
        rw [List.length_append, List.length_singleton, hs.count]
        omega
      · rw [join_append_singleton, hs.spell, List.take_append_drop]
  · -- the loop cut at the last character
    have heq : st.left = (c :: rest).length := by
      have := hs.left_le
      omega
    rw [if_neg hlt, if_pos heq]
    refine ⟨_, rfl, fun h0 => hs.count ▸ hs.bound h0, ?_⟩
    have hcolon : join st.array ++ [':'] = c :: rest := by
      have hne : st.array ≠ [] := by
        intro h
        have := hs.spell
        rw [h, heq, List.take_length] at this
        exact List.cons_ne_nil c rest this.symm
      rw [join_append_colon hne, hs.spell, heq, List.take_length]
    rw [← hcolon, List.dropLast_concat]

/-- Without a limit, a loop that meets a separator colon as the last character cuts there. -/
theorem scan_left_eq_length {raw : List Char} {n : Int} (hn : n < 0)
    (hlast : raw[raw.length - 1]? = some ':') (hsep : separates raw (raw.length - 1) = true) :
    ∀ (rest : List Char) (right : Nat) (st : SplitState), raw.drop right = rest → rest ≠ [] →
      (scan raw n right rest st).left = raw.length := by
  intro rest
  induction rest with
  | nil => exact fun _ _ _ h => absurd rfl h
  | cons c rest ih =>
    intro right st hdrop _
    have hlim : ¬(0 ≤ n ∧ n ≤ st.numberOfParts) := fun h => by omega
    cases rest with
    | nil =>
      -- the last character, at `right = len(raw) - 1`
      have hrem : raw.length - right = 1 := by
        simpa only [List.length_drop, List.length_singleton] using congrArg List.length hdrop
      have hlen : right = raw.length - 1 := by omega
      have hc : c = ':' := by
        have := congrArg List.head? hdrop
        rw [List.head?_drop, hlen, hlast] at this
        exact (Option.some.inj this).symm
      rw [scan, if_neg hlim, if_neg (not_not.mpr hc), if_pos (hlen ▸ hsep), scan]
      simp only [SplitState.cut]
      omega
    | cons d rest =>
      have hnext : raw.drop (right + 1) = d :: rest := by rw [← List.drop_drop, hdrop]; rfl
      unfold scan
      rw [if_neg hlim]
      split_ifs <;> exact ih (right + 1) _ hnext (List.cons_ne_nil d rest)

/-- A spec ending in a separator colon loses it: with `n = -1`, joining the parts of `s:` gives
`s`, not `s:`. -/
theorem volumeSplitN_drops_trailing_colon (s : List Char) (hs : s ≠ [])
    (hhead : s.head? ≠ some ':') (hsep : separates (s ++ [':']) s.length = true) :
    ∃ parts, volumeSplitN (s ++ [':']) (-1) = some parts ∧ join parts = s ∧
      join parts ≠ s ++ [':'] := by
  have hhead' : (s ++ [':']).head? ≠ some ':' := by
    rwa [List.head?_append_of_ne_nil _ hs]
  obtain ⟨parts, hsplit, -, hjoin⟩ :=
    volumeSplitN_spec (s ++ [':']) (-1) (by simp) hhead' (Or.inl rfl)
  have hlen : (s ++ [':']).length - 1 = s.length := by simp
  have hpos : 0 < s.length := List.length_pos_of_ne_nil hs
  have hleft : (scan (s ++ [':']) (-1) 1 ((s ++ [':']).drop 1) SplitState.init).left =
      (s ++ [':']).length := by
    refine scan_left_eq_length (by decide) ?_ ?_ _ 1 _ rfl ?_
    · rw [hlen]
      simp
    · rw [hlen]
      exact hsep
    · intro h
      have := congrArg List.length h
      simp only [List.length_drop, List.length_append, List.length_singleton,
        List.length_nil] at this
      omega
  rw [if_pos hleft, List.dropLast_concat] at hjoin
  refine ⟨parts, hsplit, hjoin, ?_⟩
  rw [hjoin]
  intro h
  have := congrArg List.length h
  simp at this

theorem volumeSplitN_drops_trailing_colon_tmp :
    ∃ parts, volumeSplitN ("/tmp".toList ++ [':']) (-1) = some parts ∧
      join parts = "/tmp".toList ∧ join parts ≠ "/tmp".toList ++ [':'] :=
  volumeSplitN_drops_trailing_colon _ (by decide) (by decide) (by decide)

example : volumeSplitN "C:\\foo:D:\\:rw".toList (-1) =
    some ["C:\\foo".toList, "D:\\".toList, "rw".toList] := by decide

example : volumeSplitN "/foo:/bar:ro".toList 2 = some ["/foo".toList, "/bar:ro".toList] := by
  decide

end Docker.Runconfig
