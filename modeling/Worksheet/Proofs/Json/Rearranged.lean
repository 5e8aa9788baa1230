import Mathlib.Data.List.Forall2
import Worksheet.Json.Basic

/-! # Values up to the order of fields

  An object is a table, and it makes no difference in which order its fields stand. Two values are
  rearranged forms of each other if they differ in nothing else, at any depth (`Json.Rearranged`).
  As long as keys are distinct, what stands under a key is the same in both, but for being
  rearranged in turn (`Json.Rearranged.exists_fields`); and a value without arrays and objects stays
  as it is.
-/

namespace Worksheet

namespace Json

/-! ### Levels -/

mutual

/-- How deep arrays and objects are nested in a value. -/
def levels : Json → Nat
  | .arr items => levelsIn items + 1
  | .obj fields => levelsUnder fields + 1
  | _ => 0

/-- How deep arrays and objects are nested in several values. -/
def levelsIn : List Json → Nat
  | [] => 0
  | v :: rest => max v.levels (levelsIn rest)

/-- How deep arrays and objects are nested in the values of fields. -/
def levelsUnder : List (Option Text × Json) → Nat
  | [] => 0
  | (_, v) :: rest => max v.levels (levelsUnder rest)

end

theorem levelsUnder_append (fields others : List (Option Text × Json)) :
    levelsUnder (fields ++ others) = max (levelsUnder fields) (levelsUnder others) := by
  induction fields with
  | nil => rw [List.nil_append, levelsUnder, Nat.zero_max]
  | cons f fields ih =>
    obtain ⟨key, v⟩ := f
    rw [List.cons_append, levelsUnder, levelsUnder, ih, Nat.max_assoc]

/-! ### Rearranging -/

/-- Values that are the same but for the order of the fields in their objects. -/
inductive Rearranged : Json → Json → Prop where
  | refl (v : Json) : Rearranged v v
  | arr {items others : List Json} (h : List.Forall₂ Rearranged items others) :
      Rearranged (.arr items) (.arr others)
  /-- The fields are put into another order, and their values are rearranged in their turn. -/
  | obj {fields between others : List (Option Text × Json)} (hperm : fields.Perm between)
      (hkeys : between.map Prod.fst = others.map Prod.fst)
      (hvalues : List.Forall₂ Rearranged (between.map Prod.snd) (others.map Prod.snd)) :
      Rearranged (.obj fields) (.obj others)

theorem forall₂_rearranged_refl (items : List Json) : List.Forall₂ Rearranged items items :=
  List.forall₂_same.2 fun v _ => .refl v

theorem Rearranged.eq_of_levels {v w : Json} (h : Rearranged v w) (hw : w.levels = 0) : v = w := by
  cases h with
  | refl => rfl
  | arr _ => exact absurd hw (Nat.succ_ne_zero _)
  | obj _ _ _ => exact absurd hw (Nat.succ_ne_zero _)

theorem eq_of_rel {value other : Option Json} (h : Option.Rel Rearranged value other)
    (hother : ∀ w ∈ other, w.levels = 0) : value = other := by
  cases h with
  | none => rfl
  | some h => rw [h.eq_of_levels (hother _ rfl)]

theorem Rearranged.exists_items {v : Json} {others : List Json} (h : Rearranged v (.arr others)) :
    ∃ items, v = .arr items ∧ List.Forall₂ Rearranged items others := by
  cases h with
  | refl => exact ⟨others, rfl, forall₂_rearranged_refl others⟩
  | arr h => exact ⟨_, rfl, h⟩

/-! ### What stands under a key -/

/-- Where keys are distinct, the order of fields makes no difference to what stands under a key. -/
theorem lookup_perm {fields others : List (Option Text × Json)} (h : fields.Perm others)
    (hdistinct : (fields.map Prod.fst).Nodup) (key : Option Text) :
    fields.lookup key = others.lookup key := by
  induction h with
  | nil => rfl
  | cons x _ ih =>
    obtain ⟨k, v⟩ := x
    rw [List.lookup_cons, List.lookup_cons, ih (List.nodup_cons.1 hdistinct).2]
  | swap x y rest =>
    obtain ⟨k, v⟩ := x
    obtain ⟨l, w⟩ := y
    -- the key is not that of both fields, so it does not matter which of them comes first
    have hne : l ≠ k := by
      rintro rfl
      simp at hdistinct
    rw [List.lookup_cons, List.lookup_cons, List.lookup_cons, List.lookup_cons]
    by_cases hkey : key = l
    · rw [hkey, beq_self_eq_true, beq_eq_false_iff_ne.2 hne]
    · rw [beq_eq_false_iff_ne.2 hkey]
  | trans h _ ih ih' => rw [ih hdistinct, ih' ((h.map Prod.fst).nodup hdistinct)]

theorem rel_lookup {fields others : List (Option Text × Json)}
    (hkeys : fields.map Prod.fst = others.map Prod.fst)
    (hvalues : List.Forall₂ Rearranged (fields.map Prod.snd) (others.map Prod.snd))
    (key : Option Text) : Option.Rel Rearranged (fields.lookup key) (others.lookup key) := by
  induction fields generalizing others with
  | nil =>
    obtain rfl := List.map_eq_nil_iff.1 hkeys.symm
    exact .none
  | cons x fields ih =>
    cases others with
    | nil => exact nomatch hkeys
    | cons y others =>
      obtain ⟨k, v⟩ := x
      obtain ⟨l, w⟩ := y
      obtain ⟨rfl, hrest⟩ := List.cons.inj hkeys
      obtain ⟨hv, hvs⟩ := List.forall₂_cons.1 hvalues
      rw [List.lookup_cons, List.lookup_cons]
      cases key == k with
      | true => exact .some hv
      | false => exact ih hrest hvs

/-- Where keys are distinct, a rearranged object has the same keys, and rearranged values under
    them. -/
theorem Rearranged.exists_fields {v : Json} {others : List (Option Text × Json)}
    (h : Rearranged v (.obj others)) (hdistinct : (others.map Prod.fst).Nodup) :
    ∃ fields, v = .obj fields ∧ (fields.map Prod.fst).Perm (others.map Prod.fst) ∧
      ∀ key, Option.Rel Rearranged (fields.lookup key) (others.lookup key) := by
  have hfields : ∃ fields between, v = .obj fields ∧ fields.Perm between ∧
      between.map Prod.fst = others.map Prod.fst ∧
      List.Forall₂ Rearranged (between.map Prod.snd) (others.map Prod.snd) := by
    cases h with
    | refl => exact ⟨others, others, rfl, .refl _, rfl, forall₂_rearranged_refl _⟩
    | obj hperm hkeys hvalues => exact ⟨_, _, rfl, hperm, hkeys, hvalues⟩
  obtain ⟨fields, between, rfl, hperm, hkeys, hvalues⟩ := hfields
  have hsame : (fields.map Prod.fst).Perm (others.map Prod.fst) := hkeys ▸ hperm.map Prod.fst
  refine ⟨fields, rfl, hsame, ?_⟩
  intro key
  rw [lookup_perm hperm (hsame.nodup_iff.2 hdistinct) key]
  exact rel_lookup hkeys hvalues key

end Json

end Worksheet
