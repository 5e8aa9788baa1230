import Worksheet.Editor.Snapshot
import Worksheet.Proofs.Json.Rearranged

/-! # The fields of a node

  The fields of an object are sorted by their names. If the keys of the object are distinct, every
  field gets what stands under its name, wherever that is and whatever else is in the object
  (`Snapshot.Fields.ofObject?_eq_ofTable`). In the other direction the fields that have a value are
  written as an object under their names (`Snapshot.Fields.entries`), and from any rearranged form
  of that object they are all found again.
-/

namespace Worksheet

namespace Snapshot.Fields

/-! ### Fields by their names -/

/-- The names of the fields that count. -/
def names : List String := ["kind", "id", "text", "original", "status", "children"]

/-- The fields that a table gives values to. -/
def ofTable (value? : String → Option Json) : Fields :=
  ⟨value? "kind", value? "id", value? "text", value? "original", value? "status",
    value? "children"⟩

/-- The value of the field of a name. -/
def value? (f : Fields) (name : String) : Option Json :=
  if name = "kind" then f.kind
  else if name = "id" then f.id
  else if name = "text" then f.text
  else if name = "original" then f.source
  else if name = "status" then f.status
  else if name = "children" then f.children
  else none

/-- Gives a value to the field of a name, if there is such a field. -/
def put (f : Fields) (name : String) (v : Json) : Fields :=
  ofTable fun other => if other = name then some v else f.value? other

theorem ofTable_congr {value? other? : String → Option Json}
    (h : ∀ name ∈ names, value? name = other? name) : ofTable value? = ofTable other? := by
  simp only [names, List.forall_mem_cons] at h
  obtain ⟨hkind, hid, htext, hsource, hstatus, hchildren, -⟩ := h
  rw [ofTable, ofTable, hkind, hid, htext, hsource, hstatus, hchildren]

theorem ofTable_value? (f : Fields) : ofTable f.value? = f := by
  rfl

theorem value?_ofTable {table : String → Option Json} {name : String} (h : name ∈ names) :
    (ofTable table).value? name = table name := by
  simp only [names, List.mem_cons, List.not_mem_nil, or_false] at h
  rcases h with rfl | rfl | rfl | rfl | rfl | rfl <;> rfl

theorem value?_of_not_mem {name : String} (h : name ∉ names) (f : Fields) :
    f.value? name = none := by
  simp only [names, List.mem_cons, List.not_mem_nil, or_false, not_or] at h
  simp [value?, h]

theorem put_of_not_mem {name : String} (h : name ∉ names) (f : Fields) (v : Json) :
    f.put name v = f := by
  rw [← ofTable_value? f, put]
  apply ofTable_congr
  intro other hother
  rw [if_neg]
  · rfl
  · rintro rfl
    exact h hother

/-! ### Sorting the fields of an object -/

/-- A field that has no value yet is given one; one that does not count is passed over. -/
theorem ofObject?_cons {f : Fields} {name : String} (h : f.value? name = none) (v : Json)
    (rest : List (Option Text × Json)) :
    ofObject? ((some name.toList, v) :: rest) f = ofObject? rest (f.put name v) := by
  rw [ofObject?]
  simp only [Option.bind_eq_bind, Option.bind_some, String.ofList_toList]
  by_cases hname : name ∈ names
  · simp only [names, List.mem_cons, List.not_mem_nil, or_false] at hname
    rcases hname with rfl | rfl | rfl | rfl | rfl | rfl
    all_goals
      simp only [value?, String.reduceEq, if_true, if_false] at h
      simp only [h, setOnce?, String.reduceEq, if_true, if_false, Option.bind_some]
      rfl
  · rw [put_of_not_mem hname]
    simp only [names, List.mem_cons, List.not_mem_nil, or_false, not_or] at hname
    simp [hname]

/-- Where keys are distinct texts that no field has a value for yet, each field gets what stands
    under its name. -/
theorem ofObject?_eq {fields : List (Option Text × Json)} {f : Fields}
    (hkeys : ∀ key ∈ fields.map Prod.fst, key.isSome) (hdistinct : (fields.map Prod.fst).Nodup)
    (hfree : ∀ name : String, some name.toList ∈ fields.map Prod.fst → f.value? name = none) :
    ofObject? fields f =
      some (ofTable fun name => (f.value? name).or (fields.lookup (some name.toList))) := by
  -- the fields that have a value already are those whose names came before
  induction fields generalizing f with
  | nil =>
    simp only [List.lookup_nil, Option.or_none]
    rfl
  | cons x rest ih =>
    obtain ⟨key, v⟩ := x
    obtain ⟨key, rfl⟩ := Option.isSome_iff_exists.1 (hkeys key List.mem_cons_self)
    obtain ⟨name, rfl⟩ : ∃ name : String, key = name.toList :=
      ⟨String.ofList key, String.toList_ofList.symm⟩
    obtain ⟨hhead, hrest⟩ := List.nodup_cons.1 hdistinct
    have hnone : f.value? name = none := hfree name List.mem_cons_self
    have hput : ∀ other ∈ names,
        (f.put name v).value? other = if other = name then some v else f.value? other :=
      fun _ hother => value?_ofTable hother
    rw [ofObject?_cons hnone, ih (fun key hkey => hkeys key (List.mem_cons_of_mem _ hkey)) hrest]
    · apply congrArg some
      apply ofTable_congr
      intro other hother
      rw [hput other hother, List.lookup_cons]
      by_cases heq : other = name
      · rw [heq, if_pos rfl, hnone, beq_self_eq_true]
        rfl
      · have hne : (some other.toList == some name.toList) = false := by
          rw [beq_eq_false_iff_ne]
          intro h
          exact heq (String.toList_inj.1 (Option.some.inj h))
        rw [if_neg heq, hne]
    · intro other hother
      by_cases hname : other ∈ names
      · have hne : other ≠ name := by
          rintro rfl
          exact hhead hother
        rw [hput other hname, if_neg hne]
        exact hfree other (List.mem_cons_of_mem _ hother)
      · exact value?_of_not_mem hname _

/-- Where the keys of an object are distinct texts, each field has what stands under its name,
    wherever that is. -/
theorem ofObject?_eq_ofTable {fields : List (Option Text × Json)}
    (hkeys : ∀ key ∈ fields.map Prod.fst, key.isSome) (hdistinct : (fields.map Prod.fst).Nodup) :
    ofObject? fields {} = some (ofTable fun name => fields.lookup (some name.toList)) := by
  have hfree : ∀ name, value? {} name = none := by
    intro name
    simp [value?]
  rw [ofObject?_eq hkeys hdistinct fun name _ => hfree name]
  simp only [hfree, Option.none_or]

/-! ### Fields as an object -/

/-- The fields that have a value, in their order. -/
def entries (f : Fields) : List (String × Json) :=
  names.flatMap fun name => (f.value? name).toList.map fun v => (name, v)

/-- Entries as they stand in an object. -/
def keyed (entries : List (String × Json)) : List (Option Text × Json) :=
  entries.map fun (name, v) => (some name.toList, v)

theorem keyed_append (entries others : List (String × Json)) :
    keyed (entries ++ others) = keyed entries ++ keyed others :=
  List.map_append

theorem lookup_keyed (entries : List (String × Json)) (name : String) :
    (keyed entries).lookup (some name.toList) = entries.lookup name := by
  induction entries with
  | nil => rfl
  | cons x entries ih =>
    obtain ⟨key, v⟩ := x
    have hsame : (some name.toList == some key.toList) = (name == key) := by
      rw [Bool.eq_iff_iff, beq_iff_eq, beq_iff_eq, Option.some.injEq, String.toList_inj]
    show List.lookup _ ((some key.toList, v) :: keyed entries) = _
    rw [List.lookup_cons, List.lookup_cons, hsame, ih]

theorem lookup_toList_map (value : Option Json) (other name : String) :
    (value.toList.map fun v => (other, v)).lookup name = if name = other then value else none := by
  cases value with
  | none => rw [Option.toList_none, List.map_nil, List.lookup_nil, ite_self]
  | some v =>
    rw [Option.toList_some, List.map_singleton, List.lookup_cons]
    by_cases h : name = other
    · rw [h, beq_self_eq_true, if_pos rfl]
    · rw [beq_eq_false_iff_ne.2 h, if_neg h, List.lookup_nil]

theorem lookup_flatMap (value? : String → Option Json) (names : List String) (name : String) :
    (names.flatMap fun name => (value? name).toList.map fun v => (name, v)).lookup name =
      if name ∈ names then value? name else none := by
  induction names with
  | nil => rfl
  | cons other names ih =>
    rw [List.flatMap_cons, List.lookup_append, ih, lookup_toList_map]
    by_cases h : name = other
    · subst h
      cases value? name <;> simp
    · simp [h]

/-- The value of a field stands under its name. -/
theorem lookup_entries (f : Fields) {name : String} (h : name ∈ names) :
    (keyed f.entries).lookup (some name.toList) = f.value? name := by
  rw [lookup_keyed, entries, lookup_flatMap, if_pos h]

theorem exists_of_mem_keyed_entries {f : Fields} {x : Option Text × Json}
    (h : x ∈ keyed f.entries) : x.1.isSome ∧ ∃ name, x.2 ∈ f.value? name := by
  obtain ⟨⟨key, v⟩, hentry, rfl⟩ := List.mem_map.1 h
  obtain ⟨name, -, hv⟩ := List.mem_flatMap.1 hentry
  obtain ⟨w, hw, heq⟩ := List.mem_map.1 hv
  cases heq
  exact ⟨rfl, _, Option.mem_toList.1 hw⟩

/-- No field is written twice. -/
theorem nodup_keyed_entries (f : Fields) : ((keyed f.entries).map Prod.fst).Nodup := by
  have hkeys : (keyed f.entries).map Prod.fst =
      names.flatMap fun name => (f.value? name).toList.map fun _ => some name.toList := by
    simp [keyed, entries, List.map_flatMap, Function.comp_def]
  have hsublist : ∀ names : List String,
      (names.flatMap fun name =>
        (f.value? name).toList.map fun _ => some name.toList).Sublist
        (names.map fun name => some name.toList) := by
    intro names
    induction names with
    | nil => exact List.Sublist.refl []
    | cons name names ih =>
      rw [List.flatMap_cons, List.map_cons]
      cases f.value? name with
      | none => exact ih.cons _
      | some v => exact ih.cons_cons _
  rw [hkeys]
  exact (hsublist names).nodup (by decide)

theorem isSome_of_mem_keys {f : Fields} {key : Option Text}
    (h : key ∈ (keyed f.entries).map Prod.fst) : key.isSome := by
  obtain ⟨x, hx, rfl⟩ := List.mem_map.1 h
  exact (exists_of_mem_keyed_entries hx).1

/-- Fields are read as they are written. -/
theorem of?_object_entries (f : Fields) : of? (.object f.entries) = some f := by
  have hsorted : of? (.object f.entries) =
      some (ofTable fun name => (keyed f.entries).lookup (some name.toList)) :=
    ofObject?_eq_ofTable (fun _ => isSome_of_mem_keys) f.nodup_keyed_entries
  rw [hsorted, ofTable_congr fun name hname => lookup_entries f hname, ofTable_value?]

/-- In whatever form the entries of fields arrive, every field is found. -/
theorem exists_of_rearranged {v : Json} {f : Fields} (h : v.Rearranged (.object f.entries)) :
    ∃ table : String → Option Json, of? v = some (ofTable table) ∧
      ∀ name ∈ names, Option.Rel Json.Rearranged (table name) (f.value? name) := by
  obtain ⟨fields, rfl, hsame, hrel⟩ := h.exists_fields f.nodup_keyed_entries
  refine ⟨_, ofObject?_eq_ofTable ?_ (hsame.nodup_iff.2 f.nodup_keyed_entries), ?_⟩
  · intro key hkey
    exact isSome_of_mem_keys (hsame.subset hkey)
  · intro name hname
    rw [← lookup_entries f hname]
    exact hrel _

/-! ### How deep the object is -/

theorem levelsUnder_keyed (value : Option Json) (name : String) :
    Json.levelsUnder (keyed (value.toList.map fun v => (name, v))) =
      (value.map Json.levels).getD 0 := by
  cases value with
  | none => rfl
  | some v => exact Nat.max_eq_left (Nat.zero_le _)

/-- Where no other field holds arrays or objects, an object is a level deeper than the children. -/
theorem levels_object_entries {f : Fields}
    (h : ∀ name ≠ "children", ∀ v ∈ f.value? name, v.levels = 0) :
    (Json.object f.entries).levels = (f.children.map Json.levels).getD 0 + 1 := by
  have hzero : ∀ name ≠ "children", ((f.value? name).map Json.levels).getD 0 = 0 := by
    intro name hname
    have hlevels := h name hname
    cases hvalue : f.value? name with
    | none => rfl
    | some v => exact hlevels v hvalue
  show Json.levelsUnder (keyed f.entries) + 1 = _
  simp only [entries, names, List.flatMap_cons, List.flatMap_nil, keyed_append,
    Json.levelsUnder_append, levelsUnder_keyed]
  rw [hzero "kind" (by decide), hzero "id" (by decide), hzero "text" (by decide),
    hzero "original" (by decide), hzero "status" (by decide)]
  simp [keyed, Json.levelsUnder, value?]

end Snapshot.Fields

end Worksheet
