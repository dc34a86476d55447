import Columnar.Store.Table
import Mathlib

namespace Columnar.Table

variable {α : Type} {table : Table α} {name other : String} {value : α}

/-- No name stands twice in the table. -/
def Distinct (table : Table α) : Prop := table.names.Nodup

/-- The table without the first value of a name. -/
def without (table : Table α) (name : String) : Table α := (table.take name).2

theorem extract_fst (name : String) (entries : List (String × α)) :
    (extract name entries).1 = entries.lookup name := by
  induction entries with
  | nil => rfl
  | cons entry rest ih =>
    obtain ⟨key, value⟩ := entry
    by_cases same : key = name
    · subst same
      simp [extract]
    · have different : (name == key) = false := beq_eq_false_iff_ne.mpr (Ne.symm same)
      simp [extract, same, List.lookup_cons, different, ih]

theorem take_eq (table : Table α) (name : String) :
    table.take name = (table.find? name, table.without name) := by
  rw [without, find?, ← extract_fst]
  rfl

theorem extract_perm {entries : List (String × α)} (found : entries.lookup name = some value) :
    entries.Perm ((name, value) :: (extract name entries).2) := by
  induction entries with
  | nil => cases found
  | cons entry rest ih =>
    obtain ⟨key, held⟩ := entry
    by_cases same : key = name
    · subst same
      rw [List.lookup_cons_self] at found
      cases found
      simp [extract]
    · have different : (name == key) = false := beq_eq_false_iff_ne.mpr (Ne.symm same)
      rw [List.lookup_cons, different] at found
      simp only [extract, if_neg same]
      exact (List.Perm.cons _ (ih found)).trans (List.Perm.swap _ _ _)

/-- The values are those that are left and the one that was taken. -/
theorem perm_without (found : table.find? name = some value) :
    table.entries.Perm ((name, value) :: (table.without name).entries) :=
  extract_perm found

theorem extract_eq_self {entries : List (String × α)} (missing : entries.lookup name = none) :
    (extract name entries).2 = entries := by
  induction entries with
  | nil => rfl
  | cons entry rest ih =>
    obtain ⟨key, held⟩ := entry
    by_cases same : key = name
    · subst same
      rw [List.lookup_cons_self] at missing
      cases missing
    · have different : (name == key) = false := beq_eq_false_iff_ne.mpr (Ne.symm same)
      rw [List.lookup_cons, different] at missing
      simp [extract, same, ih missing]

theorem without_eq_self (missing : table.find? name = none) : table.without name = table :=
  congrArg Table.mk (extract_eq_self missing)

theorem lookup_extract {entries : List (String × α)} (different : other ≠ name) :
    (extract name entries).2.lookup other = entries.lookup other := by
  induction entries with
  | nil => rfl
  | cons entry rest ih =>
    obtain ⟨key, held⟩ := entry
    by_cases same : key = name
    · subst same
      have apart : (other == key) = false := beq_eq_false_iff_ne.mpr different
      simp [extract, List.lookup_cons, apart]
    · simp [extract, same, List.lookup_cons, ih]

theorem find?_without_of_ne (table : Table α) (different : other ≠ name) :
    (table.without name).find? other = table.find? other :=
  lookup_extract different

theorem find?_put (table : Table α) (name : String) (value : α) (other : String) :
    (table.put name value).find? other = if other = name then some value else table.find? other := by
  by_cases same : other = name
  · subst same
    rw [if_pos rfl, find?, put, List.lookup_cons_self]
  · have different : (other == name) = false := beq_eq_false_iff_ne.mpr same
    rw [if_neg same, find?, put, List.lookup_cons, different, find?]

/-- What was put in is in front, and taken out first. -/
theorem without_put (table : Table α) (name : String) (value : α) :
    (table.put name value).without name = table := by
  simp [without, take, put, extract]

theorem find?_eq_none_iff : table.find? name = none ↔ name ∉ table.names := by
  rw [find?, List.lookup_eq_none_iff, names, List.mem_map]
  constructor
  · intro absent present
    obtain ⟨entry, member, rfl⟩ := present
    have different := absent entry member
    simp at different
  · intro absent entry member
    apply bne_iff_ne.mpr
    intro same
    exact absent ⟨entry, member, same.symm⟩

theorem mem_of_find? (found : table.find? name = some value) : (name, value) ∈ table.entries :=
  (perm_without found).symm.subset List.mem_cons_self

theorem names_without (found : table.find? name = some value) :
    table.names.Perm (name :: (table.without name).names) :=
  (perm_without found).map Prod.fst

namespace Distinct

theorem without (distinct : table.Distinct) (name : String) : (table.without name).Distinct := by
  cases found : table.find? name with
  | none => rwa [without_eq_self found]
  | some value => exact (List.nodup_cons.mp ((names_without found).nodup_iff.mp distinct)).2

theorem find?_self (distinct : table.Distinct) (name : String) :
    (table.without name).find? name = none := by
  cases found : table.find? name with
  | none => rwa [without_eq_self found]
  | some value =>
    exact find?_eq_none_iff.mpr (List.nodup_cons.mp ((names_without found).nodup_iff.mp distinct)).1

theorem find?_of_without (distinct : table.Distinct) {other : String}
    (found : (table.without name).find? other = some value) :
    other ≠ name ∧ table.find? other = some value := by
  have apart : other ≠ name := by
    rintro rfl
    cases (distinct.find?_self other).symm.trans found
  exact ⟨apart, (find?_without_of_ne table apart).symm.trans found⟩

theorem find?_of_mem (distinct : table.Distinct) (member : (name, value) ∈ table.entries) :
    table.find? name = some value := by
  cases found : table.find? name with
  | none =>
    exact absurd (List.mem_map_of_mem (f := Prod.fst) member) (find?_eq_none_iff.mp found)
  | some held =>
    rcases List.mem_cons.mp ((perm_without found).subset member) with same | later
    · cases same
      rfl
    · exact absurd (List.mem_map_of_mem (f := Prod.fst) later)
        (find?_eq_none_iff.mp (distinct.find?_self name))

theorem put (distinct : table.Distinct) (missing : table.find? name = none) (value : α) :
    (table.put name value).Distinct :=
  List.nodup_cons.mpr ⟨find?_eq_none_iff.mp missing, distinct⟩

end Distinct

end Columnar.Table
