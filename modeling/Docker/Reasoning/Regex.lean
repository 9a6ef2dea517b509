import Mathlib

/-!
# Regex — regular expressions over a text, with anchors

Regular expressions whose atoms are symbol classes (`sat p`), with the zero-width anchors `bol`
and `eol` of a search without the multi-line flag.  `Matches w r i j` says that `r` matches the
text `w` from position `i` to position `j`; the anchors look at the whole text, so `bol` holds at
position 0 only and `eol` at the end only.  `Search r w` is a match anywhere in the text, which is
what a regexp engine's `MatchString` answers.

The matcher takes Brzozowski derivatives along the text.  A derivative is taken at a position
that is or is not the start (`deriv st`), and a residue is nullable at a position that is or is not
the start and the end (`nullable st en`): that is all the anchors need.  `fullMatch_iff` and
`search_iff` say that the matcher decides `Matches` and `Search`.
-/

namespace Reasoning

inductive Regex (α : Type*) where
  | none
  | eps
  | sat (p : α → Bool)
  | alt (r s : Regex α)
  | seq (r s : Regex α)
  | star (r : Regex α)
  | bol
  | eol

namespace Regex

variable {α : Type*}

/-- `r` matches the text `w` from position `i` to position `j`. -/
inductive Matches (w : List α) : Regex α → Nat → Nat → Prop
  | eps {i} : i ≤ w.length → Matches w eps i i
  | sat {p i} (h : i < w.length) : p w[i] = true → Matches w (sat p) i (i + 1)
  | altL {r s i j} : Matches w r i j → Matches w (alt r s) i j
  | altR {r s i j} : Matches w s i j → Matches w (alt r s) i j
  | seq {r s i k j} : Matches w r i k → Matches w s k j → Matches w (seq r s) i j
  | starNil {r i} : i ≤ w.length → Matches w (star r) i i
  | starCons {r i k j} : Matches w r i k → Matches w (star r) k j → Matches w (star r) i j
  | bol : Matches w bol 0 0
  | eol : Matches w eol w.length w.length

/-- A match anywhere in the text. -/
def Search (r : Regex α) (w : List α) : Prop := ∃ i j, Matches w r i j

/-! ## 1. Derived forms -/

def any : Regex α := sat fun _ => true

def lit [DecidableEq α] (a : α) : Regex α := sat fun b => decide (b = a)

/-- The symbols of a word, one after the other. -/
def word [DecidableEq α] : List α → Regex α
  | [] => eps
  | a :: s => seq (lit a) (word s)

def plus (r : Regex α) : Regex α := seq r (star r)

def opt (r : Regex α) : Regex α := alt eps r

/-! ## 2. Inversion -/

variable {w : List α} {r s : Regex α} {i j : Nat}

theorem Matches.le (h : Matches w r i j) : i ≤ j ∧ j ≤ w.length := by
  induction h with
  | eps hi => exact ⟨le_rfl, hi⟩
  | sat h _ => exact ⟨Nat.le_succ _, h⟩
  | altL _ ih => exact ih
  | altR _ ih => exact ih
  | seq _ _ ih₁ ih₂ => exact ⟨ih₁.1.trans ih₂.1, ih₂.2⟩
  | starNil hi => exact ⟨le_rfl, hi⟩
  | starCons _ _ ih₁ ih₂ => exact ⟨ih₁.1.trans ih₂.1, ih₂.2⟩
  | bol => exact ⟨le_rfl, Nat.zero_le _⟩
  | eol => exact ⟨le_rfl, le_rfl⟩

@[simp] theorem matches_none : ¬ Matches w none i j := nofun

@[simp] theorem matches_eps_iff : Matches w eps i j ↔ j = i ∧ i ≤ w.length := by
  constructor
  · intro h
    cases h with
    | eps hi => exact ⟨rfl, hi⟩
  · rintro ⟨rfl, hi⟩
    exact .eps hi

theorem matches_sat_iff {p : α → Bool} :
    Matches w (sat p) i j ↔ ∃ h : i < w.length, p w[i] = true ∧ j = i + 1 := by
  constructor
  · intro h
    cases h with
    | sat h hp => exact ⟨h, hp, rfl⟩
  · rintro ⟨h, hp, rfl⟩
    exact .sat h hp

@[simp] theorem matches_alt_iff : Matches w (alt r s) i j ↔ Matches w r i j ∨ Matches w s i j := by
  constructor
  · intro h
    cases h with
    | altL h => exact .inl h
    | altR h => exact .inr h
  · rintro (h | h)
    · exact .altL h
    · exact .altR h

@[simp] theorem matches_seq_iff :
    Matches w (seq r s) i j ↔ ∃ k, Matches w r i k ∧ Matches w s k j := by
  constructor
  · intro h
    cases h with
    | seq h₁ h₂ => exact ⟨_, h₁, h₂⟩
  · rintro ⟨k, h₁, h₂⟩
    exact .seq h₁ h₂

@[simp] theorem matches_bol_iff : Matches w bol i j ↔ i = 0 ∧ j = 0 := by
  constructor
  · rintro ⟨⟩
    exact ⟨rfl, rfl⟩
  · rintro ⟨rfl, rfl⟩
    exact .bol

@[simp] theorem matches_eol_iff : Matches w eol i j ↔ i = w.length ∧ j = w.length := by
  constructor
  · rintro ⟨⟩
    exact ⟨rfl, rfl⟩
  · rintro ⟨rfl, rfl⟩
    exact .eol

/-- A star that advances does so through a first iteration that advances. -/
theorem Matches.star_advance (h : Matches w (star r) i j) (hij : i < j) :
    ∃ k, i < k ∧ Matches w r i k ∧ Matches w (star r) k j := by
  generalize hr : star r = t at h
  induction h with
  | starNil _ => omega
  | @starCons r' i k j h₁ h₂ _ ih₂ =>
    cases hr
    rcases Nat.lt_or_ge i k with hik | hki
    · exact ⟨k, hik, h₁, h₂⟩
    · -- the first iteration matched nothing: the rest of the star advances
      have hk : k = i := le_antisymm hki h₁.le.1
      subst hk
      exact ih₂ hij rfl
  | _ => cases hr

theorem matches_star_any : Matches w (star any) i j ↔ i ≤ j ∧ j ≤ w.length := by
  constructor
  · exact Matches.le
  · rintro ⟨hij, hj⟩
    obtain ⟨n, rfl⟩ := Nat.exists_eq_add_of_le hij
    induction n generalizing i with
    | zero => exact .starNil hj
    | succ n ih =>
      have hrest := ih (i := i + 1) (by omega) (by omega)
      rw [show i + 1 + n = i + (n + 1) by omega] at hrest
      exact .starCons (.sat (by omega) rfl) hrest

/-! ## 3. The matcher -/

/-- `r` matches the empty word at a position that is (`st`) or is not the start, and is (`en`) or
is not the end. -/
def nullable (st en : Bool) : Regex α → Bool
  | none => false
  | eps => true
  | sat _ => false
  | alt r s => nullable st en r || nullable st en s
  | seq r s => nullable st en r && nullable st en s
  | star _ => true
  | bol => st
  | eol => en

/-- `alt` that drops a side matching nothing. -/
def mkAlt : Regex α → Regex α → Regex α
  | none, s => s
  | r, none => r
  | r, s => alt r s

/-- `seq` that drops an `eps` in front and collapses with a side matching nothing. -/
def mkSeq : Regex α → Regex α → Regex α
  | none, _ => none
  | _, none => none
  | eps, s => s
  | r, s => seq r s

/-- What is left of `r` once it has read `a` at a position that is (`st`) or is not the start. -/
def deriv (st : Bool) (a : α) : Regex α → Regex α
  | none => none
  | eps => none
  | sat p => if p a then eps else none
  | alt r s => mkAlt (deriv st a r) (deriv st a s)
  | seq r s =>
    if nullable st false r then mkAlt (mkSeq (deriv st a r) s) (deriv st a s)
    else mkSeq (deriv st a r) s
  | star r => mkSeq (deriv st a r) (star r)
  | bol => none
  | eol => none

/-- The derivatives along a word; only the first is taken at the start. -/
def derivs (r : Regex α) (st : Bool) : List α → Regex α
  | [] => r
  | a :: as => derivs (deriv st a r) false as

/-- `r` matches the whole text. -/
def fullMatch (r : Regex α) (w : List α) : Bool :=
  nullable w.isEmpty true (derivs r true w)

/-- `r` matches somewhere in the text. -/
def search (r : Regex α) (w : List α) : Bool :=
  fullMatch (seq (star any) (seq r (star any))) w

/-! ## 4. The matcher decides `Matches` -/

theorem nullable_iff (r : Regex α) (hi : i ≤ w.length) :
    nullable (decide (i = 0)) (decide (i = w.length)) r = true ↔ Matches w r i i := by
  induction r with
  | none => simp [nullable]
  | eps => simp [nullable, hi]
  | sat p =>
    simp only [nullable, Bool.false_eq_true, false_iff, matches_sat_iff]
    omega
  | alt r s ihr ihs => simp [nullable, ihr, ihs]
  | seq r s ihr ihs =>
    -- a match of the empty span splits at that same position
    simp only [nullable, Bool.and_eq_true, ihr, ihs, matches_seq_iff]
    constructor
    · rintro ⟨h₁, h₂⟩
      exact ⟨i, h₁, h₂⟩
    · rintro ⟨k, h₁, h₂⟩
      have hk : k = i := le_antisymm h₂.le.1 h₁.le.1
      subst hk
      exact ⟨h₁, h₂⟩
  | star r _ => simpa [nullable] using Matches.starNil hi
  | bol => simp [nullable]
  | eol => simp [nullable]

theorem matches_mkAlt : Matches w (mkAlt r s) i j ↔ Matches w (alt r s) i j := by
  unfold mkAlt
  split <;> simp

theorem matches_mkSeq : Matches w (mkSeq r s) i j ↔ Matches w (seq r s) i j := by
  unfold mkSeq
  split
  · simp
  · simp
  · -- an `eps` in front matches the empty span
    simp only [matches_seq_iff, matches_eps_iff]
    constructor
    · intro h
      exact ⟨i, ⟨rfl, h.le.1.trans h.le.2⟩, h⟩
    · rintro ⟨k, ⟨rfl, -⟩, h⟩
      exact h
  · rfl

/-- Reading the symbol at `i` leaves what matches the rest of every span from `i` that is not
empty. -/
theorem deriv_iff (r : Regex α) (hi : i < w.length) (hij : i < j) :
    Matches w (deriv (decide (i = 0)) w[i] r) (i + 1) j ↔ Matches w r i j := by
  have hen : decide (i = w.length) = false := by simp; omega
  induction r generalizing j with
  | none => simp [deriv]
  | eps => simp [deriv]; omega
  | sat p =>
    rw [deriv, matches_sat_iff]
    split
    next hp =>
      simp only [matches_eps_iff]
      constructor
      · rintro ⟨rfl, -⟩
        exact ⟨hi, hp, rfl⟩
      · rintro ⟨-, -, rfl⟩
        exact ⟨rfl, hi⟩
    next hp =>
      simp only [matches_none, false_iff, not_exists, not_and]
      intro _ h
      exact absurd h hp
  | alt r s ihr ihs => simp [deriv, matches_mkAlt, ihr hij, ihs hij]
  | seq r s ihr ihs =>
    rw [deriv]
    split
    next hnull =>
      -- `r` may match nothing at `i`, and then `s` reads the symbol
      rw [← hen, nullable_iff r hi.le] at hnull
      rw [matches_mkAlt, matches_alt_iff, matches_mkSeq, matches_seq_iff, matches_seq_iff]
      constructor
      · rintro (⟨k, h₁, h₂⟩ | h)
        · exact ⟨k, (ihr (by have := h₁.le; omega)).mp h₁, h₂⟩
        · exact ⟨i, hnull, (ihs hij).mp h⟩
      · rintro ⟨k, h₁, h₂⟩
        rcases Nat.lt_or_ge i k with hik | hki
        · exact .inl ⟨k, (ihr hik).mpr h₁, h₂⟩
        · have hk : k = i := le_antisymm hki h₁.le.1
          subst hk
          exact .inr ((ihs hij).mpr h₂)
    next hnull =>
      rw [← hen, nullable_iff r hi.le] at hnull
      rw [matches_mkSeq, matches_seq_iff, matches_seq_iff]
      constructor
      · rintro ⟨k, h₁, h₂⟩
        exact ⟨k, (ihr (by have := h₁.le; omega)).mp h₁, h₂⟩
      · rintro ⟨k, h₁, h₂⟩
        rcases Nat.lt_or_ge i k with hik | hki
        · exact ⟨k, (ihr hik).mpr h₁, h₂⟩
        · have hk : k = i := le_antisymm hki h₁.le.1
          subst hk
          exact absurd h₁ hnull
  | star r ihr =>
    rw [deriv, matches_mkSeq, matches_seq_iff]
    constructor
    · rintro ⟨k, h₁, h₂⟩
      exact .starCons ((ihr (by have := h₁.le; omega)).mp h₁) h₂
    · intro h
      obtain ⟨k, hik, h₁, h₂⟩ := h.star_advance hij
      exact ⟨k, (ihr hik).mpr h₁, h₂⟩
  | bol => simp [deriv]; omega
  | eol => simp [deriv]; omega

theorem derivs_iff (r : Regex α) (hi : i ≤ w.length) :
    Matches w (derivs r (decide (i = 0)) (w.drop i)) w.length w.length ↔
      Matches w r i w.length := by
  obtain ⟨n, hn⟩ : ∃ n, w.length - i = n := ⟨_, rfl⟩
  induction n generalizing i r with
  | zero =>
    have hi' : i = w.length := by omega
    subst hi'
    rw [List.drop_length, derivs]
  | succ n ih =>
    have hlt : i < w.length := by omega
    have hnext := ih (i := i + 1) (r := deriv (decide (i = 0)) w[i] r) hlt (by omega)
    rw [show decide (i + 1 = 0) = false by simp] at hnext
    rw [List.drop_eq_getElem_cons hlt, derivs, hnext, deriv_iff r hlt hlt]

theorem fullMatch_iff (r : Regex α) (w : List α) :
    fullMatch r w = true ↔ Matches w r 0 w.length := by
  have hnull := nullable_iff (derivs r true w) (le_refl w.length)
  have hder := derivs_iff r (w := w) (i := 0) (Nat.zero_le _)
  simp only [List.drop_zero, decide_true] at hnull hder
  rw [fullMatch, ← hder, ← hnull]
  -- the start flag at the end of the text
  cases w <;> rfl

theorem search_iff (r : Regex α) (w : List α) : search r w = true ↔ Search r w := by
  rw [search, fullMatch_iff, Search]
  simp only [matches_seq_iff, matches_star_any]
  constructor
  · rintro ⟨i, -, j, h, -⟩
    exact ⟨i, j, h⟩
  · rintro ⟨i, j, h⟩
    exact ⟨i, ⟨Nat.zero_le _, h.le.1.trans h.le.2⟩, j, h, h.le.2, le_rfl⟩

instance (r : Regex α) (w : List α) : Decidable (Search r w) :=
  decidable_of_iff _ (search_iff r w)

end Regex

end Reasoning
