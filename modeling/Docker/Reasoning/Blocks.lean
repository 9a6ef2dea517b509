import Mathlib

/-!
# Blocks — partial bijections made of translated intervals

A block carries the half-open interval `[src, src + size)` onto `[dst, dst + size)` by
translation.  A list of blocks is read as a partial map (`lookup`): the first block whose source
holds a point translates it.  When the sources are pairwise apart the first such block is the only
one, and when the targets are apart as well the inverted list undoes the map (`lookup_inv`).

`stack` lays blocks end to end from a base point: the sources follow one another, so they are
apart and together cover `[base, base + total)`.
-/

namespace Reasoning

structure Block where
  src : Int
  dst : Int
  size : Int
  deriving DecidableEq, Repr

namespace Block

variable {b c : Block} {x : Int}

def Contains (b : Block) (x : Int) : Prop := b.src ≤ x ∧ x < b.src + b.size

instance (b : Block) (x : Int) : Decidable (b.Contains x) := inferInstanceAs (Decidable (_ ∧ _))

def apply (b : Block) (x : Int) : Int := b.dst + (x - b.src)

/-- The same block read from its target back to its source. -/
def inv (b : Block) : Block := ⟨b.dst, b.src, b.size⟩

/-- Two blocks whose sources share no point. -/
def Apart (b c : Block) : Prop := ∀ x, b.Contains x → ¬ c.Contains x

@[simp] theorem inv_inv (b : Block) : b.inv.inv = b := rfl

@[simp] theorem inv_comp_inv : Block.inv ∘ Block.inv = id := rfl

theorem Contains.inv (h : b.Contains x) : b.inv.Contains (b.apply x) := by
  simp only [Contains, Block.inv, apply] at h ⊢
  omega

@[simp] theorem inv_apply_apply (b : Block) (x : Int) : b.inv.apply (b.apply x) = x := by
  simp only [Block.inv, apply]
  omega

theorem Apart.symm (h : Apart b c) : Apart c b := fun x hc hb => h x hb hc

end Block

open Block

variable {bs : List Block} {b : Block} {x y : Int}

def lookup : List Block → Int → Option Int
  | [], _ => none
  | b :: bs, x => if b.Contains x then some (b.apply x) else lookup bs x

@[simp] theorem lookup_nil (x : Int) : lookup [] x = none := rfl

theorem lookup_cons (b : Block) (bs : List Block) (x : Int) :
    lookup (b :: bs) x = if b.Contains x then some (b.apply x) else lookup bs x := rfl

/-- Sources apart: a block holding the point is the one that translates it. -/
theorem lookup_of_contains (hd : bs.Pairwise Apart) (hb : b ∈ bs) (hx : b.Contains x) :
    lookup bs x = some (b.apply x) := by
  induction bs with
  | nil => cases hb
  | cons c cs ih =>
    rw [List.pairwise_cons] at hd
    rw [lookup_cons]
    rcases List.mem_cons.mp hb with rfl | hb
    · rw [if_pos hx]
    · -- `b` comes later, so the head cannot hold `x`
      have hc : ¬ c.Contains x := fun hc => hd.1 b hb x hc hx
      rw [if_neg hc, ih hd.2 hb]

theorem lookup_eq_none (h : ∀ b ∈ bs, ¬ b.Contains x) : lookup bs x = none := by
  induction bs with
  | nil => rfl
  | cons c cs ih =>
    rw [lookup_cons, if_neg (h c List.mem_cons_self)]
    exact ih fun b hb => h b (List.mem_cons_of_mem c hb)

theorem exists_of_lookup_eq_some (h : lookup bs x = some y) :
    ∃ b ∈ bs, b.Contains x ∧ b.apply x = y := by
  induction bs with
  | nil => cases h
  | cons c cs ih =>
    rw [lookup_cons] at h
    split at h
    next hc => exact ⟨c, List.mem_cons_self, hc, Option.some.inj h⟩
    next =>
      obtain ⟨b, hb, hx, hy⟩ := ih h
      exact ⟨b, List.mem_cons_of_mem c hb, hx, hy⟩

/-- With the targets apart, the inverted blocks take every image back to where it came from. -/
theorem lookup_inv (hd : (bs.map Block.inv).Pairwise Apart) (h : lookup bs x = some y) :
    lookup (bs.map Block.inv) y = some x := by
  obtain ⟨b, hb, hx, rfl⟩ := exists_of_lookup_eq_some h
  rw [lookup_of_contains hd (List.mem_map_of_mem hb) hx.inv, inv_apply_apply]

/-! ## Blocks laid end to end -/

/-- Blocks onto the given `(dst, size)` targets whose sources follow one another from `base`. -/
def stack (base : Int) : List (Int × Int) → List Block
  | [] => []
  | (d, n) :: ps => ⟨base, d, n⟩ :: stack (base + n) ps

variable {ps : List (Int × Int)} {base : Int}

@[simp] theorem stack_nil (base : Int) : stack base [] = [] := rfl

@[simp] theorem stack_cons (base d n : Int) (ps : List (Int × Int)) :
    stack base ((d, n) :: ps) = ⟨base, d, n⟩ :: stack (base + n) ps := rfl

/-- What the blocks' targets are: the inverted stack reads the pairs back. -/
theorem map_inv_stack (base : Int) (ps : List (Int × Int)) :
    ((stack base ps).map Block.inv).map (fun b => (b.src, b.size)) = ps := by
  induction ps generalizing base with
  | nil => rfl
  | cons p ps ih =>
    obtain ⟨d, n⟩ := p
    rw [stack_cons, List.map_cons, List.map_cons, ih]
    rfl

/-- Every source lies in `[base, base + total)` when no size is negative. -/
theorem src_mem_stack (hps : ∀ p ∈ ps, 0 ≤ p.2) (hb : b ∈ stack base ps) :
    base ≤ b.src ∧ b.src + b.size ≤ base + (ps.map Prod.snd).sum := by
  induction ps generalizing base with
  | nil => cases hb
  | cons p ps ih =>
    obtain ⟨d, n⟩ := p
    have hn : 0 ≤ n := hps (d, n) List.mem_cons_self
    have hrest : 0 ≤ (ps.map Prod.snd).sum :=
      List.sum_nonneg fun m hm => by
        obtain ⟨q, hq, rfl⟩ := List.mem_map.mp hm
        exact hps q (List.mem_cons_of_mem _ hq)
    rw [stack_cons] at hb
    simp only [List.map_cons, List.sum_cons]
    rcases List.mem_cons.mp hb with rfl | hb
    · dsimp only
      omega
    · have := ih (fun q hq => hps q (List.mem_cons_of_mem _ hq)) hb
      omega

theorem pairwise_apart_stack (hps : ∀ p ∈ ps, 0 ≤ p.2) : (stack base ps).Pairwise Apart := by
  induction ps generalizing base with
  | nil => exact List.Pairwise.nil
  | cons p ps ih =>
    obtain ⟨d, n⟩ := p
    have hrest : ∀ q ∈ ps, 0 ≤ q.2 := fun q hq => hps q (List.mem_cons_of_mem _ hq)
    rw [stack_cons, List.pairwise_cons]
    refine ⟨?_, ih hrest⟩
    -- every later source starts at or after `base + n`, where the head's ends
    intro c hc x hx hcx
    have := (src_mem_stack hrest hc).1
    simp only [Contains] at hx hcx
    omega

/-- The pair `(lo, n)` read as the interval `[lo, lo + n)`. -/
def Holds (p : Int × Int) (x : Int) : Prop := p.1 ≤ x ∧ x < p.1 + p.2

/-- Targets given apart, the inverted stack has its sources apart. -/
theorem pairwise_apart_inv_stack (h : ps.Pairwise fun p q => ∀ x, Holds p x → ¬ Holds q x) :
    ((stack base ps).map Block.inv).Pairwise Apart := by
  rw [← map_inv_stack base ps, List.pairwise_map] at h
  exact h

theorem exists_inv_contains_stack_iff (base : Int) (ps : List (Int × Int)) (x : Int) :
    (∃ b ∈ (stack base ps).map Block.inv, b.Contains x) ↔ ∃ p ∈ ps, Holds p x := by
  conv_rhs => rw [← map_inv_stack base ps]
  simp only [List.mem_map]
  constructor
  · rintro ⟨b, hb, hx⟩
    exact ⟨(b.src, b.size), ⟨b, hb, rfl⟩, hx⟩
  · rintro ⟨_, ⟨b, hb, rfl⟩, hx⟩
    exact ⟨b, hb, hx⟩

theorem exists_contains_stack (hx : base ≤ x) (hlt : x < base + (ps.map Prod.snd).sum) :
    ∃ b ∈ stack base ps, b.Contains x := by
  induction ps generalizing base with
  | nil => simp at hlt; omega
  | cons p ps ih =>
    obtain ⟨d, n⟩ := p
    simp only [List.map_cons, List.sum_cons] at hlt
    by_cases hhead : x < base + n
    · exact ⟨⟨base, d, n⟩, List.mem_cons_self, hx, hhead⟩
    · obtain ⟨b, hb, hbx⟩ := ih (by omega : base + n ≤ x) (by omega)
      exact ⟨b, List.mem_cons_of_mem _ hb, hbx⟩

end Reasoning
