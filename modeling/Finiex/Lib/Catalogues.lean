import Finiex.Lib.Dict

namespace Finiex.Lib

namespace Dict

variable {κ α β : Type}

def mapValues (f : α → β) (d : Dict κ α) : Dict κ β where
  entries := d.entries.map fun entry => (entry.1, f entry.2)
  nodup := by
    rw [List.map_map]
    exact d.nodup

variable [DecidableEq κ]

theorem get?_mapValues (f : α → β) (d : Dict κ α) (k : κ) :
    (d.mapValues f).get? k = (d.get? k).map f := by
  simp only [get?, mapValues, List.find?_map, Option.map_map]
  rfl

theorem flatMap_entries (d : Dict κ α) (key : κ) (f : α → List β) :
    (d.entries.flatMap fun entry => if entry.1 = key then f entry.2 else []) =
      ((d.get? key).map f).getD [] := by
  have hnodup := d.nodup
  unfold get?
  generalize d.entries = entries at hnodup ⊢
  induction entries with
  | nil => rfl
  | cons entry entries ih =>
      simp only [List.map_cons, List.nodup_cons] at hnodup
      rw [List.flatMap_cons]
      by_cases hkey : entry.1 = key
      · have hnone : (entries.flatMap fun entry => if entry.1 = key then f entry.2 else []) = [] := by
          rw [List.flatMap_eq_nil_iff]
          intro later hlater
          apply if_neg
          intro hsame
          exact hnodup.1 (List.mem_map.mpr ⟨later, hlater, hsame.trans hkey.symm⟩)
        simp [hkey, hnone]
      · simp [hkey, ih hnodup.2]

end Dict

abbrev Catalogue (κ μ α : Type) := Dict κ (Dict μ (List α))

namespace Catalogue

variable {κ μ α : Type} [DecidableEq κ] [DecidableEq μ]

def entriesOf (catalogue : Catalogue κ μ α) (k : κ) (m : μ) : List α :=
  ((catalogue.get? k).bind fun groups => groups.get? m).getD []

/-- The entries that stand under two keys among rows. -/
def entriesAt (rows : List (κ × μ × α)) (k : κ) (m : μ) : List α :=
  (rows.filter fun row => row.1 = k ∧ row.2.1 = m).map fun row => row.2.2

def add (catalogue : Catalogue κ μ α) (row : κ × μ × α) : Catalogue κ μ α :=
  let groups := catalogue.getD row.1 ∅
  catalogue.set row.1 (groups.set row.2.1 (groups.getD row.2.1 [] ++ [row.2.2]))

def addAll (catalogue : Catalogue κ μ α) (rows : List (κ × μ × α)) : Catalogue κ μ α :=
  rows.foldl add catalogue

def mapEntries (f : List α → List α) (catalogue : Catalogue κ μ α) : Catalogue κ μ α :=
  catalogue.mapValues fun groups => groups.mapValues f

def rows (catalogue : Catalogue κ μ α) : List (κ × μ × α) :=
  catalogue.entries.flatMap fun groups =>
    groups.2.entries.flatMap fun group => group.2.map fun entry => (groups.1, group.1, entry)

@[simp] theorem entriesOf_empty (k : κ) (m : μ) :
    entriesOf (∅ : Catalogue κ μ α) k m = [] := rfl

@[simp] theorem entriesAt_nil (k : κ) (m : μ) : entriesAt ([] : List (κ × μ × α)) k m = [] := rfl

theorem entriesAt_append (rows rows' : List (κ × μ × α)) (k : κ) (m : μ) :
    entriesAt (rows ++ rows') k m = entriesAt rows k m ++ entriesAt rows' k m := by
  simp [entriesAt]

theorem entriesAt_cons (row : κ × μ × α) (rows : List (κ × μ × α)) (k : κ) (m : μ) :
    entriesAt (row :: rows) k m = entriesAt [row] k m ++ entriesAt rows k m :=
  entriesAt_append [row] rows k m

theorem entriesOf_add (catalogue : Catalogue κ μ α) (row : κ × μ × α) (k : κ) (m : μ) :
    entriesOf (catalogue.add row) k m = entriesOf catalogue k m ++ entriesAt [row] k m := by
  unfold entriesOf add
  by_cases hk : row.1 = k
  · subst hk
    rw [Dict.get?_set_self, Option.bind_some]
    by_cases hm : row.2.1 = m
    · subst hm
      rw [Dict.get?_set_self]
      cases hgroups : catalogue.get? row.1 with
      | none => simp [entriesAt, Dict.getD, hgroups]
      | some groups => simp [entriesAt, Dict.getD, hgroups]
    · rw [Dict.get?_set_ne _ _ (Ne.symm hm)]
      cases hgroups : catalogue.get? row.1 with
      | none => simp [entriesAt, Dict.getD, hgroups, hm]
      | some groups => simp [entriesAt, Dict.getD, hgroups, hm]
  · rw [Dict.get?_set_ne _ _ (Ne.symm hk)]
    simp [entriesAt, hk]

theorem entriesOf_addAll (catalogue : Catalogue κ μ α) (rows : List (κ × μ × α)) (k : κ) (m : μ) :
    entriesOf (catalogue.addAll rows) k m = entriesOf catalogue k m ++ entriesAt rows k m := by
  induction rows generalizing catalogue with
  | nil => simp [addAll]
  | cons row rows ih =>
      change entriesOf ((catalogue.add row).addAll rows) k m = _
      rw [ih, entriesOf_add, entriesAt_cons row rows, List.append_assoc]

theorem entriesOf_mapEntries {f : List α → List α} (hnil : f [] = []) (catalogue : Catalogue κ μ α)
    (k : κ) (m : μ) : entriesOf (catalogue.mapEntries f) k m = f (entriesOf catalogue k m) := by
  unfold entriesOf mapEntries
  rw [Dict.get?_mapValues]
  cases hgroups : catalogue.get? k with
  | none => simp [hnil]
  | some groups =>
      simp only [Option.map_some, Option.bind_some, Dict.get?_mapValues]
      cases groups.get? m with
      | none => simp [hnil]
      | some entries => simp

theorem entriesAt_group (key k : κ) (m : μ) (group : μ × List α) :
    entriesAt (group.2.map fun entry => (key, group.1, entry)) k m =
      if key = k then (if group.1 = m then group.2 else []) else [] := by
  by_cases hk : key = k <;> by_cases hm : group.1 = m <;>
    simp [entriesAt, List.filter_map, Function.comp_def, hk, hm]

theorem entriesAt_groups (key k : κ) (m : μ) (groups : Dict μ (List α)) :
    entriesAt (groups.entries.flatMap fun group =>
      group.2.map fun entry => (key, group.1, entry)) k m =
      if key = k then (groups.get? m).getD [] else [] := by
  have hflat := groups.flatMap_entries m fun entries => entries
  rw [Option.map_id'] at hflat
  rw [← hflat]
  generalize groups.entries = entries
  induction entries with
  | nil => simp
  | cons group entries ih =>
      rw [List.flatMap_cons, entriesAt_append, entriesAt_group, ih, List.flatMap_cons]
      split <;> simp

theorem entriesAt_rows (catalogue : Catalogue κ μ α) (k : κ) (m : μ) :
    entriesAt catalogue.rows k m = entriesOf catalogue k m := by
  have hflat := catalogue.flatMap_entries k fun groups => (groups.get? m).getD []
  have hrows : entriesAt catalogue.rows k m = catalogue.entries.flatMap fun groups =>
      if groups.1 = k then (groups.2.get? m).getD [] else [] := by
    unfold rows
    generalize catalogue.entries = entries
    induction entries with
    | nil => rfl
    | cons groups entries ih =>
        rw [List.flatMap_cons, entriesAt_append, entriesAt_groups, ih, List.flatMap_cons]
  rw [hrows, hflat, entriesOf]
  cases catalogue.get? k with
  | none => rfl
  | some groups => rfl

end Catalogue

end Finiex.Lib
