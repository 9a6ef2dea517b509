import Mathlib

/-!
# UintList — `ParseUintList` of `pkg/parsers/parsers.go`

`ParseUintList` reads a cgroup cpu or memory-node list such as `0,3-4,7`: comma-separated items,
each a number or a range `min-max`, every bound read by `strconv.Atoi` as a 64-bit `int`.  A range
is filled by `for i := min; i <= max; i++`, whose `i` wraps at the largest `int`.  The loop is
modelled with fuel, one unit a turn.

The ints a list stands for are `uintListSpec`.  With the fuel of every 64-bit range, the parser
returns them, or the error of the first bad item, whenever no range ends at the largest `int`
(`parseUintList_eq_spec`).  A range that does end there is filled forever: `i <= max` holds of
every `int`, so the loop never leaves whatever fuel it is given (`fillRange_maxInt64`).
-/

namespace Docker.Parsers

def minInt64 : Int := -2 ^ 63

def maxInt64 : Int := 2 ^ 63 - 1

-- the 64-bit `int` a result wraps to
def wrapInt64 (x : Int) : Int := x.bmod (2 ^ 64)

-- the sign `strconv.ParseInt` accepts, and what follows it
def splitSign : List Char → Bool × List Char
  | '+' :: ds => (false, ds)
  | '-' :: ds => (true, ds)
  | ds => (false, ds)

def digitsValue (ds : List Char) : Int :=
  ds.foldl (fun n c => 10 * n + ((c.toNat - '0'.toNat : Nat) : Int)) 0

/-- `strconv.Atoi` on a 64-bit platform: an optional sign, then decimal digits, in range. -/
def atoi (s : List Char) : Option Int :=
  let ds := (splitSign s).2
  if ds.isEmpty || !ds.all Char.isDigit then none
  else
    let v : Int := if (splitSign s).1 then -digitsValue ds else digitsValue ds
    if minInt64 ≤ v ∧ v ≤ maxInt64 then some v else none

-- `strings.SplitN(r, "-", 2)` of an item that holds a `-`
def splitRange (r : List Char) : List Char × List Char :=
  (r.takeWhile (· != '-'), (r.dropWhile (· != '-')).drop 1)

/-- `for i := min; i <= max; i++ { availableInts[i] = true }`, for at most `fuel` turns. -/
def fillRange : Nat → Int → Int → Finset Int → Option (Finset Int)
  | 0, _, _, _ => none
  | fuel + 1, i, max, acc =>
    if i ≤ max then fillRange fuel (wrapInt64 (i + 1)) max (insert i acc) else some acc

/-- The loop over the items: the map, `some none` for a bad item, `none` when a range runs out of
fuel. -/
def parseItems (fuel : Nat) : List (List Char) → Finset Int → Option (Option (Finset Int))
  | [], acc => some (some acc)
  | r :: rs, acc =>
    if !r.contains '-' then
      match atoi r with
      | none => some none
      | some v => parseItems fuel rs (insert v acc)
    else
      match atoi (splitRange r).1, atoi (splitRange r).2 with
      | some min, some max =>
        if max < min then some none
        else
          match fillRange fuel min max acc with
          | none => none
          | some acc => parseItems fuel rs acc
      | _, _ => some none

def errInvalidFormat (val : List Char) : List Char := "invalid format: ".toList ++ val

/-- `ParseUintList(val)`, given `fuel` turns for each range; `none` when a range runs out. -/
def parseUintList (fuel : Nat) (val : List Char) : Option (Except (List Char) (Finset Int)) :=
  if val = [] then some (.ok ∅)
  else
    match parseItems fuel (val.splitOn ',') ∅ with
    | none => none
    | some none => some (.error (errInvalidFormat val))
    | some (some m) => some (.ok m)

/-- `isCpusetListAvailable(provided, available)` of `pkg/sysinfo`, which parses user input. -/
def isCpusetListAvailable (fuel : Nat) (provided available : List Char) :
    Option (Except (List Char) Bool) :=
  match parseUintList fuel provided with
  | none => none
  | some (.error e) => some (.error e)
  | some (.ok parsedProvided) =>
    match parseUintList fuel available with
    | none => none
    | some (.error e) => some (.error e)
    | some (.ok parsedAvailable) => some (.ok (decide (parsedProvided ⊆ parsedAvailable)))

/-! ## What a list stands for -/

-- the ints from `a` to `b`
def intRange (a b : Int) : Finset Int :=
  ((List.range (b + 1 - a).toNat).map fun j : Nat => a + (j : Int)).toFinset

theorem mem_intRange {a b k : Int} : k ∈ intRange a b ↔ a ≤ k ∧ k ≤ b := by
  simp only [intRange, List.mem_toFinset, List.mem_map, List.mem_range]
  constructor
  · rintro ⟨n, hn, rfl⟩
    omega
  · intro hk
    exact ⟨(k - a).toNat, by omega, by omega⟩

/-- The ints one item stands for: a number, or every int from `min` to `max`. -/
def itemSet (r : List Char) : Option (Finset Int) :=
  if !r.contains '-' then (atoi r).map ({·})
  else
    match atoi (splitRange r).1, atoi (splitRange r).2 with
    | some min, some max => if max < min then none else some (intRange min max)
    | _, _ => none

/-- The keys `ParseUintList` should return: the union over the items, or an error when one of
them does not parse. -/
def uintListSpec (val : List Char) : Except (List Char) (Finset Int) :=
  if val = [] then .ok ∅
  else
    match (val.splitOn ',').mapM itemSet with
    | some sets => .ok (sets.foldl (· ∪ ·) ∅)
    | none => .error (errInvalidFormat val)

/-! ## The range loop -/

theorem atoi_mem {s : List Char} {v : Int} (h : atoi s = some v) : minInt64 ≤ v ∧ v ≤ maxInt64 := by
  unfold atoi at h
  dsimp only at h
  split at h
  · cases h
  · generalize (ite ((splitSign s).1 = true) _ _ : Int) = w at h
    split at h
    · rename_i hw
      obtain rfl := Option.some.inj h
      exact hw
    · cases h

theorem wrapInt64_of_mem {x : Int} (h₁ : minInt64 ≤ x) (h₂ : x ≤ maxInt64) : wrapInt64 x = x := by
  unfold wrapInt64
  unfold minInt64 maxInt64 at *
  apply Int.bmod_eq_of_le <;> norm_num <;> omega

theorem wrapInt64_mem (x : Int) : minInt64 ≤ wrapInt64 x ∧ wrapInt64 x ≤ maxInt64 := by
  have hlo := Int.le_bmod (x := x) (m := 2 ^ 64) (by norm_num)
  have hhi := Int.bmod_lt (x := x) (m := 2 ^ 64) (by norm_num)
  unfold wrapInt64 minInt64 maxInt64
  norm_num at hlo hhi ⊢
  omega

/-- Below the largest `int`, the loop fills `[i, max]`, given a turn for each int and one to see
that `i` has passed `max`. -/
theorem fillRange_eq (fuel : Nat) (i max : Int) (acc : Finset Int) (hi : minInt64 ≤ i)
    (hle : i ≤ max + 1) (hmax : max < maxInt64) (hfuel : max + 2 - i ≤ fuel) :
    fillRange fuel i max acc = some (acc ∪ intRange i max) := by
  induction fuel generalizing i acc with
  | zero => omega
  | succ fuel ih =>
    rw [fillRange]
    split
    · rename_i hin
      have hnext : wrapInt64 (i + 1) = i + 1 := wrapInt64_of_mem (by omega) (by omega)
      rw [hnext, ih (i + 1) (insert i acc) (by omega) (by omega) (by omega)]
      congr 1
      ext k
      simp only [Finset.mem_union, Finset.mem_insert, mem_intRange]
      by_cases hk : k ∈ acc
      · simp only [hk, or_true, true_or]
      · simp only [hk, or_false, false_or]
        constructor <;> intro h <;> omega
    · rename_i hpast
      have hempty : intRange i max = ∅ := by
        ext k
        simp only [mem_intRange, Finset.notMem_empty, iff_false]
        omega
      rw [hempty, Finset.union_empty]

/-- A range that ends at the largest `int` is never left: `i <= max` holds of every `int`, and
`i++` wraps to the smallest. -/
theorem fillRange_maxInt64 (fuel : Nat) (i : Int) (acc : Finset Int) (hi' : i ≤ maxInt64) :
    fillRange fuel i maxInt64 acc = none := by
  induction fuel generalizing i acc with
  | zero => rfl
  | succ fuel ih =>
    rw [fillRange, if_pos hi']
    exact ih _ _ (wrapInt64_mem (i + 1)).2

/-! ## The parser -/

-- the items whose ranges end below the largest `int`
def BelowMaxInt64 (r : List Char) : Prop :=
  ∀ max, atoi (splitRange r).2 = some max → max < maxInt64

/-- With a turn for every 64-bit int, the item loop computes what the items stand for, as long as
no range ends at the largest `int`. -/
theorem parseItems_eq (fuel : Nat) (hfuel : 2 ^ 64 + 1 ≤ fuel) (rs : List (List Char))
    (hrs : ∀ r ∈ rs, BelowMaxInt64 r) (acc : Finset Int) :
    parseItems fuel rs acc = some ((rs.mapM itemSet).map fun sets => sets.foldl (· ∪ ·) acc) := by
  induction rs generalizing acc with
  | nil => rfl
  | cons r rs ih =>
    have hrest := ih (fun r' hr' => hrs r' (List.mem_cons_of_mem r hr'))
    rw [parseItems, List.mapM_cons, itemSet]
    split
    · -- a number
      cases hv : atoi r with
      | none => rfl
      | some v =>
        dsimp only
        rw [hrest]
        cases rs.mapM itemSet with
        | none => rfl
        | some sets =>
          -- `insert v acc` is `acc ∪ {v}`, the first union of the fold
          rw [Finset.insert_eq, Finset.union_comm]
          rfl
    · -- a range
      split
      · rename_i min max hmin hmax
        have hlo := (atoi_mem hmin).1
        have hhi := (atoi_mem hmax).2
        have hbelow := hrs r List.mem_cons_self max hmax
        split
        · rfl
        · rename_i hle
          -- a 64-bit range has at most `2 ^ 64` ints
          have hturns : max + 2 - min ≤ fuel := by
            unfold minInt64 at hlo
            unfold maxInt64 at hhi
            have hfuel' : (2 ^ 64 + 1 : Int) ≤ fuel := by exact_mod_cast hfuel
            omega
          rw [fillRange_eq fuel min max acc hlo (by omega) hbelow hturns]
          dsimp only
          rw [hrest]
          cases rs.mapM itemSet with
          | none => rfl
          | some sets => rfl
      · rfl

/-- With a turn for every 64-bit int, `ParseUintList` terminates with what the list stands for,
or with its error, as long as no range ends at the largest `int`. -/
theorem parseUintList_eq_spec (fuel : Nat) (hfuel : 2 ^ 64 + 1 ≤ fuel) (val : List Char)
    (hval : ∀ r ∈ val.splitOn ',', BelowMaxInt64 r) :
    parseUintList fuel val = some (uintListSpec val) := by
  unfold parseUintList uintListSpec
  split
  · rfl
  · rw [parseItems_eq fuel hfuel _ hval]
    cases (val.splitOn ',').mapM itemSet with
    | none => rfl
    | some sets => rfl

example : parseUintList 10 "0,3-4".toList = some (.ok {4, 3, 0}) := by rfl

/-- `ParseUintList("0-9223372036854775807")`, which `docker run --cpuset-cpus` hands on through
`isCpusetListAvailable`, never returns, whatever fuel it is given. -/
theorem parseUintList_maxInt64_diverges (fuel : Nat) :
    parseUintList fuel "0-9223372036854775807".toList = none ∧
      isCpusetListAvailable fuel "0-9223372036854775807".toList "0-3".toList = none := by
  have hsplit : "0-9223372036854775807".toList.splitOn ',' = ["0-9223372036854775807".toList] := by
    decide
  have hlo : atoi (splitRange "0-9223372036854775807".toList).1 = some 0 := by decide
  have hhi : atoi (splitRange "0-9223372036854775807".toList).2 = some maxInt64 := by decide
  have hparse : parseUintList fuel "0-9223372036854775807".toList = none := by
    unfold parseUintList
    rw [if_neg (by decide), hsplit, parseItems, if_neg (by decide)]
    simp only [hlo, hhi]
    rw [if_neg (by decide), fillRange_maxInt64 fuel 0 ∅ (by decide)]
  refine ⟨hparse, ?_⟩
  unfold isCpusetListAvailable
  rw [hparse]

end Docker.Parsers
