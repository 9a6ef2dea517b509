import Mathlib.Data.List.Basic

/-!
# Fields — splitting a list into its fields

`fieldsFunc p s` is the list of maximal runs of `s` with no separator (an element where `p`
holds), as `strings.FieldsFunc` gives them: empty runs are dropped.  A reader that sees one element
at a time and keeps the finished fields and the one it is reading (`Acc.push`) computes it
(`fieldsFunc_eq_foldl`).

`DropsSome p s t` says that `t` is `s` with some separators deleted and every other element kept
in order.
-/

namespace Reasoning.Fields

variable {α : Type*} (p : α → Bool)

-- `strings.FieldsFunc(s, p)`
def fieldsFunc (s : List α) : List (List α) :=
  (s.splitOnP p).filter (fun w => !w.isEmpty)

/-- A reader of fields: those finished, and the one being read. -/
structure Acc (α : Type*) where
  done : List (List α)
  cur : List α

/-- Read one element: a separator ends the current field, if there is one. -/
def Acc.push (a : Acc α) (c : α) : Acc α :=
  if p c then (if a.cur.isEmpty then a else ⟨a.done ++ [a.cur], []⟩)
  else ⟨a.done, a.cur ++ [c]⟩

/-- The fields read, the current one included. -/
def Acc.fields (a : Acc α) : List (List α) :=
  if a.cur.isEmpty then a.done else a.done ++ [a.cur]

theorem fieldsFunc_of_forall {s : List α} (h : ∀ x ∈ s, p x = false) :
    fieldsFunc p s = if s.isEmpty then [] else [s] := by
  rw [fieldsFunc, List.splitOnP_eq_singleton h]
  cases s <;> rfl

/-- A field with no separator, then a separator. -/
theorem fieldsFunc_append_cons {cur : List α} (h : ∀ x ∈ cur, p x = false) {c : α} (hc : p c)
    (s : List α) :
    fieldsFunc p (cur ++ c :: s) = (if cur.isEmpty then [] else [cur]) ++ fieldsFunc p s := by
  rw [fieldsFunc, List.splitOnP_append_cons_of_forall_mem h c hc, List.filter_cons]
  cases cur <;> rfl

/-- Reading on from any reader whose current field holds no separator. -/
theorem foldl_push_fields (s : List α) :
    ∀ a : Acc α, (∀ x ∈ a.cur, p x = false) →
      (s.foldl (Acc.push p) a).fields = a.done ++ fieldsFunc p (a.cur ++ s) := by
  induction s with
  | nil =>
    intro a ha
    rw [List.foldl_nil, List.append_nil, fieldsFunc_of_forall p ha, Acc.fields]
    cases a.cur.isEmpty <;> simp
  | cons c s ih =>
    intro a ha
    rw [List.foldl_cons]
    by_cases hc : p c
    · -- a separator: the current field is finished
      rw [fieldsFunc_append_cons p ha hc]
      cases hcur : a.cur.isEmpty
      · have hpush : a.push p c = ⟨a.done ++ [a.cur], []⟩ := by simp [Acc.push, hc, hcur]
        rw [hpush, ih _ (by simp)]
        simp
      · have hpush : a.push p c = a := by simp [Acc.push, hc, hcur]
        rw [hpush, ih a ha, List.isEmpty_iff.1 hcur]
        simp
    · -- any other element extends it
      have hpush : a.push p c = ⟨a.done, a.cur ++ [c]⟩ := by simp [Acc.push, hc]
      have hcur : ∀ x ∈ a.cur ++ [c], p x = false := by
        intro x hx
        rcases List.mem_append.1 hx with hx | hx
        · exact ha x hx
        · rw [List.mem_singleton.1 hx]
          simpa using hc
      rw [hpush, ih _ hcur, List.append_assoc, List.singleton_append]

theorem fieldsFunc_eq_foldl (s : List α) :
    fieldsFunc p s = (s.foldl (Acc.push p) ⟨[], []⟩).fields := by
  rw [foldl_push_fields p s ⟨[], []⟩ (by simp)]
  rfl

/-- `t` is `s` with some separators deleted: every other element is kept, in order. -/
def DropsSome (s t : List α) : Prop :=
  t.Sublist s ∧ s.filter (fun x => !p x) = t.filter (fun x => !p x)

theorem DropsSome.refl (s : List α) : DropsSome p s s :=
  ⟨List.Sublist.refl s, rfl⟩

variable {p} in
theorem DropsSome.append {s t s' t' : List α} (h : DropsSome p s t) (h' : DropsSome p s' t') :
    DropsSome p (s ++ s') (t ++ t') :=
  ⟨h.1.append h'.1, by rw [List.filter_append, List.filter_append, h.2, h'.2]⟩

theorem dropsSome_filter (s : List α) : DropsSome p s (s.filter (fun x => !p x)) := by
  refine ⟨List.filter_sublist, ?_⟩
  rw [List.filter_filter]
  simp

end Reasoning.Fields
