import Mathlib

/-!
# PathOrder — lists of paths that put ancestors first

A path is a list of names, and its ancestors are its proper prefixes.  A walk over a tree that
reports each subtree as a block of paths under the subtree's name makes a list in which no path
repeats and every path comes after those of its ancestors the list holds, as long as sibling names
differ.  Both are `Pairwise` statements: with `≠` for no repeats, and with "is not an ancestor of"
for the order.  What makes either hold is that paths under different siblings are in no prefix
relation (`not_prefix_of_diverge`); the lemmas here put such lists together from a head path above
a block, from blocks under distinct keys, and from blocks side by side.
-/

namespace Reasoning.PathOrder

variable {α β : Type*}

/-- `y` is a proper ancestor of `x`. -/
def IsAncestor (y x : List α) : Prop := y <+: x ∧ y ≠ x

/-- A later path is never an ancestor of an earlier one. -/
def AncestorsFirst (l : List (List α)) : Prop := l.Pairwise fun x y => ¬ IsAncestor y x

theorem IsAncestor.length_lt {x y : List α} (h : IsAncestor y x) : y.length < x.length := by
  have hle := h.1.length_le
  have hne : y.length ≠ x.length := fun heq => h.2 (h.1.eq_of_length heq)
  omega

theorem IsAncestor.asymm {x y : List α} (h : IsAncestor y x) : ¬ IsAncestor x y := fun h' =>
  absurd h.length_lt (Nat.lt_asymm h'.length_lt)

theorem isAncestor_append_singleton (p : List α) (a : α) : IsAncestor p (p ++ [a]) :=
  ⟨List.prefix_append _ _, fun h => by simpa using congrArg List.length h⟩

theorem IsAncestor.extend {p x y : List α} (hp : IsAncestor p x) (hx : x <+: y) :
    IsAncestor p y :=
  ⟨hp.1.trans hx, fun h => by
    subst h
    exact hp.2 (hp.1.eq_of_length (Nat.le_antisymm hp.1.length_le hx.length_le))⟩

theorem IsAncestor.trans {x y z : List α} (hxy : IsAncestor x y) (hyz : IsAncestor y z) :
    IsAncestor x z :=
  hxy.extend hyz.1

/-- Paths under two different children of `p` are in no prefix relation. -/
theorem not_prefix_of_diverge {p x y : List α} {a b : α} (hx : p ++ [a] <+: x)
    (hy : p ++ [b] <+: y) (hab : a ≠ b) : ¬ y <+: x := by
  intro hyx
  have hlen : (p ++ [a]).length ≤ (p ++ [b]).length := by simp
  have heq : p ++ [a] = p ++ [b] :=
    (List.prefix_of_prefix_length_le hx (hy.trans hyx) hlen).eq_of_length (by simp)
  exact hab (by simpa using heq)

/-! ## Relations that hold between unrelated paths

Both relations of interest hold between paths neither of which is a prefix of the other, and
between an ancestor and a path below it listed in that order. -/

section Blocks

variable {R : List α → List α → Prop}

/-- `R` holds between paths in no prefix relation. -/
def Unrelated (R : List α → List α → Prop) : Prop := ∀ x y, ¬ x <+: y → ¬ y <+: x → R x y

/-- `R` holds from an ancestor to a path below it. -/
def Downward (R : List α → List α → Prop) : Prop := ∀ x y, IsAncestor x y → R x y

theorem unrelated_ne : Unrelated (α := α) (· ≠ ·) := fun x _ hxy _ h =>
  hxy (h ▸ List.prefix_refl x)

theorem downward_ne : Downward (α := α) (· ≠ ·) := fun _ _ h => h.2

theorem unrelated_notAncestor : Unrelated (α := α) fun x y => ¬ IsAncestor y x :=
  fun _ _ _ hyx h => hyx h.1

theorem downward_notAncestor : Downward (α := α) fun x y => ¬ IsAncestor y x :=
  fun _ _ h => h.asymm

theorem Unrelated.of_diverge (hR : Unrelated R) {p x y : List α} {a b : α}
    (hx : p ++ [a] <+: x) (hy : p ++ [b] <+: y) (hab : a ≠ b) : R x y :=
  hR x y (not_prefix_of_diverge hy hx (Ne.symm hab)) (not_prefix_of_diverge hx hy hab)

/-- A head path above every path of a block. -/
theorem pairwise_cons_of_below (hR : Downward R) {p : List α} {l : List (List α)}
    (hbelow : ∀ y ∈ l, IsAncestor p y) (hl : l.Pairwise R) : (p :: l).Pairwise R :=
  List.pairwise_cons.mpr ⟨fun y hy => hR p y (hbelow y hy), hl⟩

/-- Blocks under distinct keys, each block below `p ++ [key c]`. -/
theorem pairwise_flatMap_of_keys (hR : Unrelated R) (p : List α) (key : β → α)
    (f : β → List (List α)) {cs : List β} (hkeys : (cs.map key).Nodup)
    (hunder : ∀ c ∈ cs, ∀ x ∈ f c, p ++ [key c] <+: x)
    (hblock : ∀ c ∈ cs, (f c).Pairwise R) : (cs.flatMap f).Pairwise R := by
  have hne : cs.Pairwise fun c d => key c ≠ key d :=
    List.pairwise_map.mp (List.nodup_iff_pairwise_ne.mp hkeys)
  refine List.pairwise_flatMap.mpr ⟨hblock, hne.imp_of_mem ?_⟩
  intro c d hc hd hcd x hx y hy
  exact hR.of_diverge (hunder c hc x hx) (hunder d hd y hy) hcd

/-- Two block lists side by side, whose keys never meet. -/
theorem pairwise_append_of_keys (hR : Unrelated R) {p : List α} {l₁ l₂ : List (List α)}
    (h₁ : l₁.Pairwise R) (h₂ : l₂.Pairwise R)
    (hsep : ∀ x ∈ l₁, ∀ y ∈ l₂, ∃ a b, p ++ [a] <+: x ∧ p ++ [b] <+: y ∧ a ≠ b) :
    (l₁ ++ l₂).Pairwise R := by
  refine List.pairwise_append.mpr ⟨h₁, h₂, ?_⟩
  intro x hx y hy
  obtain ⟨a, b, hxa, hyb, hab⟩ := hsep x hx y hy
  exact hR.of_diverge hxa hyb hab

end Blocks

/-! ## Children found by name

A node's children are kept as a list with one entry per name, and found with `find?` by name. -/

/-- In a list with distinct keys, the element found by its own key is itself. -/
theorem find?_key_eq_some [BEq α] [LawfulBEq α] {key : β → α} {l : List β}
    (hl : (l.map key).Nodup) {c : β} (hc : c ∈ l) : l.find? (key · == key c) = some c := by
  induction l with
  | nil => cases hc
  | cons d ds ih =>
    rw [List.map_cons, List.nodup_cons] at hl
    rcases List.mem_cons.mp hc with rfl | hc'
    · exact List.find?_cons_of_pos (by simp)
    · have hne : key d ≠ key c := fun h => hl.1 (h ▸ List.mem_map_of_mem hc')
      rw [List.find?_cons_of_neg (by simpa using hne)]
      exact ih hl.2 hc'

end Reasoning.PathOrder
