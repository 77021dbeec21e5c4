import Finiex.Lib.Overlay
import Finiex.SweepGrid
import Mathlib.Data.List.Infix

/-!
# Merging configurations

`deep_merge` with its atomic keys and its lists merged by an identifier, and the cascades of
configurations that are resolved with it.
-/

namespace Finiex.ConfigMerge

open Finiex.Lib Finiex.SweepGrid

section Merge

abbrev Fields := List (String × Json)

inductive MergeError
  | valueError (message : String)
  | keyError (key : String)
  | typeError
  deriving DecidableEq

/-- A value that can be a key of a dictionary, as Python compares it. -/
inductive Identifier
  | none
  | number (value : ℚ)
  | text (value : String)
  deriving DecidableEq

/-- Lists and dictionaries are not hashable; a boolean is equal to its number. -/
def identifier : Json → Option Identifier
  | .null => some .none
  | .bool value => some (.number (if value then 1 else 0))
  | .number value => some (.number value)
  | .text value => some (.text value)
  | .list _ => none
  | .object _ => none

structure MergeKeys where
  atomicKeys : List String := []
  listMergeKeys : List (String × String) := []

namespace MergeKeys

def isAtomic (keys : MergeKeys) (key : String) : Bool := decide (key ∈ keys.atomicKeys)

/-- The identifier field of the lists under a key, where they are merged. -/
def idKey (keys : MergeKeys) (key : String) : Option String :=
  (keys.listMergeKeys.find? fun entry => entry.1 = key).map Prod.snd

end MergeKeys

/-- `entry[id_key]` of an entry of the base, with the entry. -/
def identified (idKey : String) : Json → Except MergeError (Identifier × Fields)
  | .object fields =>
      match getField fields idKey with
      | some value =>
          match identifier value with
          | some id => .ok (id, fields)
          | none => .error .typeError
      | none => .error (.keyError idKey)
  | _ => .error .typeError

/-- The base entries by their identifiers; of several with one identifier the last one stays. -/
def entriesById (idKey : String) (byId : List (Identifier × Fields)) :
    List Json → Except MergeError (List (Identifier × Fields))
  | [] => .ok byId
  | entry :: rest => do
      let (id, fields) ← identified idKey entry
      entriesById idKey (Dict.setEntries id fields byId) rest

def missingIdentifier (idKey : String) : MergeError :=
  .valueError ("List-merge override entry missing required '" ++ idKey ++
    "' identifier — each entry in a list-merge field must declare its identifier")

def isText (text : String) : Json → Bool
  | .text value => decide (value = text)
  | _ => false

/-- What `id_key not in override_entry` leads to for an entry that is not a dictionary. -/
def entryError (idKey : String) : Json → MergeError
  | .text value =>
      if idKey.toList <:+: value.toList then .typeError else missingIdentifier idKey
  | .list items => if items.any (isText idKey) then .typeError else missingIdentifier idKey
  | _ => .typeError

def findEntry (id : Identifier) (byId : List (Identifier × Fields)) : Option Fields :=
  (byId.find? fun entry => entry.1 = id).map Prod.snd

mutual

/-- `deep_merge`, on the fields that are left of the override. -/
def mergeFields (keys : MergeKeys) (result : Fields) : Fields → Except MergeError Fields
  | [] => .ok result
  | (key, value) :: rest => do
      let merged ← mergeValue keys key (getField result key) value
      mergeFields keys (Dict.setEntries key merged result) rest

def mergeValue (keys : MergeKeys) (key : String) (old : Option Json) :
    Json → Except MergeError Json
  | .object fields =>
      if keys.isAtomic key then .ok (.object fields)
      else
        match old with
        | some (.object oldFields) => do
            let merged ← mergeFields keys oldFields fields
            return .object merged
        | _ => .ok (.object fields)
  | .list entries =>
      if keys.isAtomic key then .ok (.list entries)
      else
        match keys.idKey key, old with
        | some idKey, some (.list oldEntries) => do
            let byId ← entriesById idKey [] oldEntries
            let merged ← mergeListsByKey keys idKey byId entries
            return .list (merged.map fun entry => .object entry.2)
        | _, _ => .ok (.list entries)
  | value => .ok value

def mergeListsByKey (keys : MergeKeys) (idKey : String) (byId : List (Identifier × Fields)) :
    List Json → Except MergeError (List (Identifier × Fields))
  | [] => .ok byId
  | .object fields :: rest =>
      match getField fields idKey with
      | none => .error (missingIdentifier idKey)
      | some value =>
          match identifier value with
          | none => .error .typeError
          | some id =>
              match findEntry id byId with
              | none => mergeListsByKey keys idKey (Dict.setEntries id fields byId) rest
              | some old => do
                  let merged ← mergeFields keys old fields
                  mergeListsByKey keys idKey (Dict.setEntries id merged byId) rest
  | entry :: _ => .error (entryError idKey entry)

end

def deepMerge (keys : MergeKeys) (base override : Fields) : Except MergeError Fields :=
  mergeFields keys base override

end Merge

section Cascade

def cascadeKeys : MergeKeys where
  atomicKeys := ["balances"]

def mergeLevel (result level : Fields) : Except MergeError Fields :=
  if level.isEmpty then .ok result else deepMerge cascadeKeys result level

def mergeExecutionConfig (appDefaults globalConfig scenarioConfig : Fields) :
    Except MergeError Fields :=
  [globalConfig, scenarioConfig].foldlM mergeLevel appDefaults

def mergeTradeSimulatorConfig (appDefaults globalConfig scenarioConfig : Fields) :
    Except MergeError Fields :=
  [globalConfig, scenarioConfig].foldlM mergeLevel appDefaults

def mergeStrategyConfig (globalConfig scenarioConfig : Fields) : Except MergeError Fields :=
  [scenarioConfig].foldlM mergeLevel globalConfig

def mergeOrderGuardConfig (globalConfig scenarioConfig : Fields) : Except MergeError Fields :=
  [scenarioConfig].foldlM mergeLevel globalConfig

def mergeStressTestConfig (globalConfig scenarioConfig : Fields) : Except MergeError Fields :=
  [scenarioConfig].foldlM mergeLevel globalConfig

end Cascade

section View

/-- A step of a path: the key of a dictionary, or the identifier of an entry. -/
inductive Label
  | key (key : String)
  | entry (id : Option Identifier)
  deriving DecidableEq

/-- A dictionary, a list merged by an identifier, or a dictionary that is replaced entirely. -/
inductive NodeKind
  | object
  | entries
  | atomic
  deriving DecidableEq

def NodeKind.merges : NodeKind → Bool
  | .atomic => false
  | _ => true

abbrev ConfigTree := Tree NodeKind Label Json

def entryId (idKey : String) : Json → Option Identifier
  | .object fields => (getField fields idKey).bind identifier
  | _ => none

mutual

def viewFields (keys : MergeKeys) : Fields → List (Label × ConfigTree)
  | [] => []
  | (key, value) :: rest => (.key key, viewValue keys key value) :: viewFields keys rest

def viewValue (keys : MergeKeys) (key : String) : Json → ConfigTree
  | .object fields =>
      if keys.isAtomic key then .node .atomic (viewFields {} fields)
      else .node .object (viewFields keys fields)
  | .list entries =>
      if keys.isAtomic key then .leaf (.list entries)
      else
        match keys.idKey key with
        | some idKey => .node .entries (viewEntries keys idKey entries)
        | none => .leaf (.list entries)
  | value => .leaf value

def viewEntries (keys : MergeKeys) (idKey : String) : List Json → List (Label × ConfigTree)
  | [] => []
  | entry :: rest => (.entry (entryId idKey entry), viewEntry keys entry) ::
      viewEntries keys idKey rest

def viewEntry (keys : MergeKeys) : Json → ConfigTree
  | .object fields => .node .object (viewFields keys fields)
  | entry => .leaf entry

end

def configTree (keys : MergeKeys) (fields : Fields) : ConfigTree :=
  .node .object (viewFields keys fields)

def IsEntry : Label × ConfigTree → Prop
  | (.entry (some _), .node .object _) => True
  | _ => False

/-- The keys of a dictionary are distinct, and so are the identifiers of a merged list, whose
entries are dictionaries. -/
def Labelled (kind : NodeKind) (children : List (Label × ConfigTree)) : Prop :=
  (children.map Prod.fst).Nodup ∧ (kind = .entries → ∀ child ∈ children, IsEntry child)

def Identified (keys : MergeKeys) (fields : Fields) : Prop :=
  Tree.Everywhere Labelled (configTree keys fields)

end View

section Forget

def Label.name : Label → String
  | .key name => name
  | .entry _ => ""

mutual

def forget : ConfigTree → Json
  | .leaf value => value
  | .node .entries children => .list (forgetEntries children)
  | .node .object children => .object (forgetFields children)
  | .node .atomic children => .object (forgetFields children)

def forgetFields : List (Label × ConfigTree) → Fields
  | [] => []
  | (label, t) :: rest => (label.name, forget t) :: forgetFields rest

def forgetEntries : List (Label × ConfigTree) → List Json
  | [] => []
  | (_, t) :: rest => forget t :: forgetEntries rest

end

mutual

theorem forget_viewValue (keys : MergeKeys) (key : String) :
    ∀ value, forget (viewValue keys key value) = value
  | .null => rfl
  | .bool _ => rfl
  | .number _ => rfl
  | .text _ => rfl
  | .list entries => by
      rw [viewValue]
      split
      · rfl
      · split
        · rw [forget, forget_viewEntries]
        · rfl
  | .object fields => by
      rw [viewValue]
      split
      · rw [forget, forget_viewFields]
      · rw [forget, forget_viewFields]

theorem forget_viewFields (keys : MergeKeys) :
    ∀ fields, forgetFields (viewFields keys fields) = fields
  | [] => rfl
  | (key, value) :: rest => by
      rw [viewFields, forgetFields, forget_viewValue, forget_viewFields]
      rfl

theorem forget_viewEntries (keys : MergeKeys) (idKey : String) :
    ∀ entries, forgetEntries (viewEntries keys idKey entries) = entries
  | [] => rfl
  | entry :: rest => by
      rw [viewEntries, forgetEntries, forget_viewEntry, forget_viewEntries]

theorem forget_viewEntry (keys : MergeKeys) : ∀ entry, forget (viewEntry keys entry) = entry
  | .null => rfl
  | .bool _ => rfl
  | .number _ => rfl
  | .text _ => rfl
  | .list _ => rfl
  | .object fields => by
      rw [viewEntry, forget, forget_viewFields]

end

theorem viewFields_injective {keys : MergeKeys} {fields others : Fields}
    (h : viewFields keys fields = viewFields keys others) : fields = others := by
  rw [← forget_viewFields keys fields, h, forget_viewFields]

end Forget

section Fields

variable {keys : MergeKeys} {key : String} {fields : Fields}

theorem child_viewFields :
    Tree.child (.key key) (viewFields keys fields) =
      (getField fields key).map (viewValue keys key) := by
  induction fields with
  | nil => rfl
  | cons field fields ih =>
      obtain ⟨name, value⟩ := field
      by_cases hname : name = key
      · subst hname
        simp [viewFields, Tree.child, getField]
      · simp only [viewFields, Tree.child, getField, Label.key.injEq, hname, if_false,
          List.find?_cons_of_neg, decide_false, Bool.false_eq_true, not_false_eq_true]
        exact ih

theorem viewFields_setEntries (value : Json) :
    viewFields keys (Dict.setEntries key value fields) =
      Dict.setEntries (.key key) (viewValue keys key value) (viewFields keys fields) := by
  induction fields with
  | nil => rfl
  | cons field fields ih =>
      obtain ⟨name, old⟩ := field
      by_cases hname : name = key
      · subst hname
        simp [viewFields, Dict.setEntries]
      · simp [viewFields, Dict.setEntries, hname, ih]

theorem labels_viewFields :
    (viewFields keys fields).map Prod.fst = fields.map fun field => .key field.1 := by
  induction fields with
  | nil => rfl
  | cons field fields ih => simp [viewFields, ih]

theorem eq_of_viewValue_eq_leaf {value leaf : Json} (h : viewValue keys key value = .leaf leaf) :
    value = leaf := by
  rw [← forget_viewValue keys key value, h, forget]

theorem object_of_view {value : Json} {children : List (Label × ConfigTree)}
    (h : viewValue keys key value = .node .object children) : ∃ fields, value = .object fields := by
  cases value with
  | object fields => exact ⟨fields, rfl⟩
  | list entries =>
      unfold viewValue at h
      split at h
      · cases h
      · split at h <;> cases h
  | _ => cases h

theorem list_of_view {value : Json} {children : List (Label × ConfigTree)}
    (h : viewValue keys key value = .node .entries children) : ∃ entries, value = .list entries := by
  cases value with
  | list entries => exact ⟨entries, rfl⟩
  | object fields =>
      unfold viewValue at h
      split at h <;> cases h
  | _ => cases h

theorem labelled_below {children : List (Label × ConfigTree)} {kind : NodeKind}
    (h : Tree.Everywhere Labelled (.node kind children)) {label : Label} {t : ConfigTree}
    (hchild : Tree.child label children = some t) : Tree.Everywhere Labelled t :=
  (Tree.everywhere_node_iff.mp h).2 _ (Tree.mem_of_child hchild)

end Fields

section Entries

def viewById (keys : MergeKeys) (byId : List (Identifier × Fields)) :
    List (Label × ConfigTree) :=
  byId.map fun entry => (.entry (some entry.1), .node .object (viewFields keys entry.2))

def SelfIdentified (idKey : String) (byId : List (Identifier × Fields)) : Prop :=
  ∀ entry ∈ byId, entryId idKey (.object entry.2) = some entry.1

variable {keys : MergeKeys} {idKey : String} {byId : List (Identifier × Fields)}

theorem viewEntries_of_selfIdentified (h : SelfIdentified idKey byId) :
    viewEntries keys idKey (byId.map fun entry => .object entry.2) = viewById keys byId := by
  induction byId with
  | nil => rfl
  | cons entry byId ih =>
      have hrest : SelfIdentified idKey byId := fun e he => h e (List.mem_cons_of_mem _ he)
      have hhead := h entry (by simp)
      rw [List.map_cons, viewEntries, hhead, ih hrest]
      rfl

theorem child_viewById (id : Identifier) :
    Tree.child (.entry (some id)) (viewById keys byId) =
      (findEntry id byId).map fun fields => .node .object (viewFields keys fields) := by
  induction byId with
  | nil => rfl
  | cons entry byId ih =>
      by_cases hid : entry.1 = id
      · simp [viewById, Tree.child, findEntry, hid]
      · simp only [viewById, List.map_cons, Tree.child, findEntry, Label.entry.injEq,
          Option.some.injEq, hid, if_false, List.find?_cons_of_neg, decide_false,
          Bool.false_eq_true, not_false_eq_true]
        exact ih

theorem viewById_setEntries (id : Identifier) (fields : Fields) :
    viewById keys (Dict.setEntries id fields byId) =
      Dict.setEntries (.entry (some id)) (.node .object (viewFields keys fields))
        (viewById keys byId) := by
  induction byId with
  | nil => rfl
  | cons entry byId ih =>
      by_cases hid : entry.1 = id
      · simp [viewById, Dict.setEntries, hid]
      · have hrest := ih
        simp only [viewById] at hrest
        simp [viewById, Dict.setEntries, hid, hrest]

theorem SelfIdentified.set (h : SelfIdentified idKey byId) {id : Identifier} {fields : Fields}
    (hid : entryId idKey (.object fields) = some id) :
    SelfIdentified idKey (Dict.setEntries id fields byId) := by
  induction byId with
  | nil => simpa [SelfIdentified, Dict.setEntries] using hid
  | cons entry byId ih =>
      have hrest : SelfIdentified idKey byId := fun e he => h e (List.mem_cons_of_mem _ he)
      intro e he
      unfold Dict.setEntries at he
      split at he
      · rcases List.mem_cons.mp he with rfl | hmem
        · exact hid
        · exact hrest e hmem
      · rcases List.mem_cons.mp he with rfl | hmem
        · exact h e (by simp)
        · exact ih hrest e hmem

theorem findEntry_setEntries_ne {id other : Identifier} (fields : Fields) (hne : other ≠ id) :
    findEntry other (Dict.setEntries id fields byId) = findEntry other byId := by
  induction byId with
  | nil => simp [findEntry, Dict.setEntries, hne.symm]
  | cons entry byId ih =>
      unfold Dict.setEntries
      split
      · next heq => simp [findEntry, heq, hne.symm]
      · by_cases hentry : entry.1 = other
        · simp [findEntry, hentry]
        · simpa [findEntry, hentry] using ih

theorem exists_of_isEntry {entry : Json}
    (h : IsEntry (.entry (entryId idKey entry), viewEntry keys entry)) :
    ∃ fields value id, entry = .object fields ∧ getField fields idKey = some value ∧
      identifier value = some id := by
  cases entry with
  | object fields =>
      cases hvalue : getField fields idKey with
      | none => simp [entryId, hvalue, IsEntry] at h
      | some value =>
          cases hid : identifier value with
          | none => simp [entryId, hvalue, hid, IsEntry] at h
          | some id => exact ⟨fields, value, id, rfl, hvalue, hid⟩
  | null => exact absurd h (by simp [entryId, IsEntry])
  | bool value => exact absurd h (by simp [entryId, IsEntry])
  | number value => exact absurd h (by simp [entryId, IsEntry])
  | text value => exact absurd h (by simp [entryId, IsEntry])
  | list items => exact absurd h (by simp [entryId, IsEntry])

theorem entriesById_view {entries : List Json}
    (hentries : ∀ child ∈ viewEntries keys idKey entries, IsEntry child)
    (hnodup : ((viewById keys byId ++ viewEntries keys idKey entries).map Prod.fst).Nodup)
    (hself : SelfIdentified idKey byId) :
    ∃ listed, entriesById idKey byId entries = .ok listed ∧ SelfIdentified idKey listed ∧
      viewById keys listed = viewById keys byId ++ viewEntries keys idKey entries := by
  induction entries generalizing byId with
  | nil => exact ⟨byId, rfl, hself, by simp [viewEntries]⟩
  | cons entry entries ih =>
      rw [viewEntries] at hentries hnodup
      obtain ⟨fields, value, id, rfl, hvalue, hid⟩ := exists_of_isEntry
        (hentries (.entry (entryId idKey entry), viewEntry keys entry) List.mem_cons_self)
      have hentryId : entryId idKey (.object fields) = some id := by
        simp [entryId, hvalue, hid]
      have hfresh : Label.entry (some id) ∉ (viewById keys byId).map Prod.fst := by
        rw [List.map_append, List.nodup_append] at hnodup
        intro hmem
        exact hnodup.2.2 _ hmem _ (by simp [hentryId]) rfl
      have hview : viewById keys (Dict.setEntries id fields byId) =
          viewById keys byId ++ [(.entry (some id), .node .object (viewFields keys fields))] := by
        rw [viewById_setEntries, Dict.setEntries_of_notMem hfresh]
      have hnext : ((viewById keys (Dict.setEntries id fields byId) ++
          viewEntries keys idKey entries).map Prod.fst).Nodup := by
        simpa [hview, hentryId] using hnodup
      obtain ⟨listed, hlisted, hownId, hlist⟩ :=
        ih (fun child hchild => hentries child (by simp [hchild])) hnext (hself.set hentryId)
      refine ⟨listed, ?_, hownId, ?_⟩
      · rw [entriesById, identified, hvalue]
        simp only [hid]
        exact hlisted
      · rw [hlist, hview, viewEntries, hentryId, viewEntry]
        simp

end Entries

section Refinement

variable {keys : MergeKeys}

theorem mergeValue_object_replaces {key : String} {old : Option Json} (fields : Fields)
    (hold : ¬ ∃ oldFields, old = some (.object oldFields)) :
    mergeValue keys key old (.object fields) = .ok (.object fields) := by
  rw [mergeValue]
  · split <;> rfl
  · intro oldFields h
    exact hold ⟨oldFields, h⟩

theorem mergeValue_list_replaces {key : String} {old : Option Json} (entries : List Json)
    (hold : ¬ ∃ oldEntries, old = some (.list oldEntries)) :
    mergeValue keys key old (.list entries) = .ok (.list entries) := by
  rw [mergeValue]
  · split <;> rfl
  · intro _ oldEntries _ h
    exact hold ⟨oldEntries, h⟩

theorem viewValue_object {key : String} (hatomic : ¬keys.isAtomic key = true) (fields : Fields) :
    viewValue keys key (.object fields) = .node .object (viewFields keys fields) := by
  simp [viewValue, hatomic]

theorem viewValue_list {key idKey : String} (hatomic : ¬keys.isAtomic key = true)
    (hid : keys.idKey key = some idKey) (entries : List Json) :
    viewValue keys key (.list entries) = .node .entries (viewEntries keys idKey entries) := by
  simp [viewValue, hatomic, hid]

theorem overlay_atomic {key : String} {old : Option ConfigTree} (hatomic : keys.isAtomic key = true)
    (fields : Fields) :
    Tree.overlayOption NodeKind.merges old (some (viewValue keys key (.object fields))) =
      some (viewValue keys key (.object fields)) := by
  rw [Tree.overlayOption_replaced]
  rintro t - ⟨kind, bs, os, -, hkind, hmerges⟩
  simp only [viewValue, hatomic, if_true, Tree.node.injEq] at hkind
  rw [← hkind.1] at hmerges
  cases hmerges

theorem overlay_object_replaces {key : String} {old : Option Json} (fields : Fields)
    (hatomic : ¬keys.isAtomic key = true) (hold : ¬ ∃ oldFields, old = some (.object oldFields)) :
    Tree.overlayOption NodeKind.merges (old.map (viewValue keys key))
        (some (viewValue keys key (.object fields))) =
      some (viewValue keys key (.object fields)) := by
  rw [Tree.overlayOption_replaced]
  rintro t ht ⟨kind, bs, os, rfl, hkind, -⟩
  rw [viewValue_object hatomic] at hkind
  cases hkind
  obtain ⟨value, rfl, hnode⟩ := Option.map_eq_some_iff.mp ht
  obtain ⟨oldFields, rfl⟩ := object_of_view hnode
  exact hold ⟨oldFields, rfl⟩

theorem overlay_list_replaces {key idKey : String} {old : Option Json} (entries : List Json)
    (hatomic : ¬keys.isAtomic key = true) (hid : keys.idKey key = some idKey)
    (hold : ¬ ∃ oldEntries, old = some (.list oldEntries)) :
    Tree.overlayOption NodeKind.merges (old.map (viewValue keys key))
        (some (viewValue keys key (.list entries))) =
      some (viewValue keys key (.list entries)) := by
  rw [Tree.overlayOption_replaced]
  rintro t ht ⟨kind, bs, os, rfl, hkind, -⟩
  rw [viewValue_list hatomic hid] at hkind
  cases hkind
  obtain ⟨value, rfl, hnode⟩ := Option.map_eq_some_iff.mp ht
  obtain ⟨oldEntries, rfl⟩ := list_of_view hnode
  exact hold ⟨oldEntries, rfl⟩

theorem labelled_getField {fields : Fields}
    (h : Tree.Everywhere Labelled (configTree keys fields)) {key : String} {value : Json}
    (hvalue : getField fields key = some value) :
    Tree.Everywhere Labelled (viewValue keys key value) := by
  apply labelled_below h
  rw [child_viewFields, hvalue, Option.map_some]

theorem labelled_findEntry {idKey : String} {oldEntries : List Json}
    {listed : List (Identifier × Fields)}
    (h : Tree.Everywhere Labelled (.node .entries (viewEntries keys idKey oldEntries)))
    (hlisted : viewById keys listed = viewEntries keys idKey oldEntries) {id : Identifier}
    {fields : Fields} (hfound : findEntry id listed = some fields) :
    Tree.Everywhere Labelled (configTree keys fields) := by
  have hchild := @child_viewById keys listed id
  rw [hlisted, hfound] at hchild
  exact labelled_below h hchild

theorem entryId_of_merged {idKey : String} {old fields merged : Fields} {value : Json}
    {id : Identifier} (hnodup : ((viewFields keys fields).map Prod.fst).Nodup)
    (hvalue : getField fields idKey = some value) (hid : identifier value = some id)
    (hview : viewFields keys merged =
      Tree.overlayChildren NodeKind.merges (viewFields keys old) (viewFields keys fields)) :
    entryId idKey (.object merged) = some id := by
  have hleaf : viewValue keys idKey value = .leaf value := by
    cases value with
    | list items => simp [identifier] at hid
    | object fields => simp [identifier] at hid
    | _ => rfl
  have hchild : Tree.child (.key idKey) (viewFields keys merged) = some (.leaf value) := by
    rw [hview, Tree.child_overlayChildren hnodup, child_viewFields, child_viewFields, hvalue,
      Option.map_some, hleaf]
    cases (getField old idKey).map (viewValue keys idKey) with
    | none => rfl
    | some t => rfl
  rw [child_viewFields] at hchild
  obtain ⟨kept, hkept, hview⟩ := Option.map_eq_some_iff.mp hchild
  rw [eq_of_viewValue_eq_leaf hview] at hkept
  simp [entryId, hkept, hid]

mutual

theorem mergeFields_view {base : Fields} : ∀ {override : Fields},
    Tree.Everywhere Labelled (configTree keys override) →
    (∀ key old, key ∈ override.map Prod.fst → getField base key = some old →
      Tree.Everywhere Labelled (viewValue keys key old)) →
    ∃ merged, mergeFields keys base override = .ok merged ∧
      viewFields keys merged =
        Tree.overlayChildren NodeKind.merges (viewFields keys base) (viewFields keys override)
  | [], _, _ => ⟨base, rfl, rfl⟩
  | (key, value) :: rest, hoverride, hbase => by
      obtain ⟨⟨hnodup, -⟩, hbelow⟩ := Tree.everywhere_node_iff.mp hoverride
      rw [viewFields, List.map_cons, List.nodup_cons, labels_viewFields] at hnodup
      have hfresh : key ∉ rest.map Prod.fst := by
        intro hmem
        obtain ⟨field, hfield, rfl⟩ := List.mem_map.mp hmem
        exact hnodup.1 (List.mem_map_of_mem hfield)
      have hvalue : Tree.Everywhere Labelled (viewValue keys key value) :=
        hbelow (.key key, viewValue keys key value) List.mem_cons_self
      have hrest : Tree.Everywhere Labelled (configTree keys rest) := by
        apply Tree.everywhere_node_iff.mpr
        refine ⟨⟨?_, by simp⟩, fun c hc => hbelow c (List.mem_cons_of_mem _ hc)⟩
        rw [labels_viewFields]
        exact hnodup.2
      obtain ⟨merged, hmerged, hview⟩ :=
        mergeValue_view hvalue fun old hold => hbase key old (by simp) hold
      have hnext : ∀ other old, other ∈ rest.map Prod.fst →
          getField (Dict.setEntries key merged base) other = some old →
          Tree.Everywhere Labelled (viewValue keys other old) := by
        intro other old hother hold
        have hne : other ≠ key := by
          rintro rfl
          exact hfresh hother
        rw [getField_setEntries_of_ne merged hne] at hold
        exact hbase other old (List.mem_cons_of_mem _ hother) hold
      obtain ⟨result, hresult, hviews⟩ := mergeFields_view hrest hnext
      refine ⟨result, ?_, ?_⟩
      · rw [mergeFields, hmerged]
        exact hresult
      · rw [hviews, viewFields_setEntries, viewFields, Tree.overlayChildren_cons,
          child_viewFields, ← hview]
        rfl

theorem mergeValue_view {key : String} {old : Option Json} : ∀ {value : Json},
    Tree.Everywhere Labelled (viewValue keys key value) →
    (∀ value, old = some value → Tree.Everywhere Labelled (viewValue keys key value)) →
    ∃ merged, mergeValue keys key old value = .ok merged ∧
      some (viewValue keys key merged) =
        Tree.overlayOption NodeKind.merges (old.map (viewValue keys key))
          (some (viewValue keys key value))
  | .null, _, _ => ⟨.null, rfl, by simp [viewValue]⟩
  | .bool value, _, _ => ⟨.bool value, rfl, by simp [viewValue]⟩
  | .number value, _, _ => ⟨.number value, rfl, by simp [viewValue]⟩
  | .text value, _, _ => ⟨.text value, rfl, by simp [viewValue]⟩
  | .list entries, hvalue, hold => by
      by_cases hatomic : keys.isAtomic key = true
      · exact ⟨.list entries, by simp [mergeValue, hatomic], by simp [viewValue, hatomic]⟩
      cases hid : keys.idKey key with
      | none =>
          exact ⟨.list entries, by simp [mergeValue, hatomic, hid],
            by simp [viewValue, hatomic, hid]⟩
      | some idKey =>
          have hview := @viewValue_list keys key idKey hatomic hid
          by_cases hlist : ∃ oldEntries, old = some (.list oldEntries)
          · obtain ⟨oldEntries, rfl⟩ := hlist
            have holdLabelled := hold _ rfl
            rw [hview] at hvalue holdLabelled
            obtain ⟨⟨hnodup, hentries⟩, hbelow⟩ := Tree.everywhere_node_iff.mp hvalue
            obtain ⟨⟨holdNodup, holdEntries⟩, -⟩ := Tree.everywhere_node_iff.mp holdLabelled
            obtain ⟨listed, hlisted, hself, hlistView⟩ :=
              @entriesById_view keys idKey [] oldEntries (holdEntries rfl) holdNodup
                (by simp [SelfIdentified])
            obtain ⟨merged, hmerged, hmergedSelf, hviews⟩ :=
              mergeListsByKey_view (hentries rfl) hnodup hbelow
                (fun _ _ _ hfound => labelled_findEntry holdLabelled hlistView hfound) hself
            refine ⟨.list (merged.map fun entry => .object entry.2), ?_, ?_⟩
            · simp only [mergeValue, hatomic, hid, hlisted]
              simp only [bind, Except.bind, hmerged]
              rfl
            · rw [Option.map_some, hview, hview, hview, viewEntries_of_selfIdentified hmergedSelf,
                hviews, hlistView]
              exact congrArg some (Tree.overlay_joined rfl).symm
          · exact ⟨.list entries, mergeValue_list_replaces entries hlist,
              (overlay_list_replaces entries hatomic hid hlist).symm⟩
  | .object fields, hvalue, hold => by
      by_cases hatomic : keys.isAtomic key = true
      · exact ⟨.object fields, by simp [mergeValue, hatomic], (overlay_atomic hatomic fields).symm⟩
      have hview := @viewValue_object keys key hatomic
      rw [hview] at hvalue
      by_cases hfields : ∃ oldFields, old = some (.object oldFields)
      · obtain ⟨oldFields, rfl⟩ := hfields
        have holdLabelled := hold _ rfl
        rw [hview] at holdLabelled
        obtain ⟨merged, hmerged, hviews⟩ :=
          mergeFields_view hvalue fun _ _ _ hold => labelled_getField holdLabelled hold
        refine ⟨.object merged, ?_, ?_⟩
        · simp only [mergeValue, hatomic, hmerged]
          rfl
        · rw [Option.map_some, hview, hview, hview, hviews]
          exact congrArg some (Tree.overlay_joined rfl).symm
      · exact ⟨.object fields, mergeValue_object_replaces fields hfields,
          (overlay_object_replaces fields hatomic hfields).symm⟩

theorem mergeListsByKey_view {idKey : String} {byId : List (Identifier × Fields)} :
    ∀ {entries : List Json},
    (∀ child ∈ viewEntries keys idKey entries, IsEntry child) →
    ((viewEntries keys idKey entries).map Prod.fst).Nodup →
    (∀ child ∈ viewEntries keys idKey entries, Tree.Everywhere Labelled child.2) →
    (∀ id old, Label.entry (some id) ∈ (viewEntries keys idKey entries).map Prod.fst →
      findEntry id byId = some old → Tree.Everywhere Labelled (configTree keys old)) →
    SelfIdentified idKey byId →
    ∃ merged, mergeListsByKey keys idKey byId entries = .ok merged ∧
      SelfIdentified idKey merged ∧
      viewById keys merged = Tree.overlayChildren NodeKind.merges (viewById keys byId)
        (viewEntries keys idKey entries)
  | [], _, _, _, _, hself => ⟨byId, rfl, hself, rfl⟩
  | .object fields :: rest, hentries, hnodup, hlabelled, hbase, hself => by
      rw [viewEntries] at hentries hnodup hlabelled hbase
      obtain ⟨fields', value, id, hfields', hvalue, hid⟩ := exists_of_isEntry
        (hentries (.entry (entryId idKey (.object fields)), viewEntry keys (.object fields))
          List.mem_cons_self)
      cases hfields'
      have hentryId : entryId idKey (.object fields) = some id := by
        simp [entryId, hvalue, hid]
      have hfields : Tree.Everywhere Labelled (configTree keys fields) :=
        hlabelled _ List.mem_cons_self
      rw [List.map_cons, List.nodup_cons, hentryId] at hnodup
      have hrest : ∀ listed, entryId idKey (.object listed) = some id →
          ∃ merged, mergeListsByKey keys idKey (Dict.setEntries id listed byId) rest = .ok merged ∧
            SelfIdentified idKey merged ∧
            viewById keys merged = Tree.overlayChildren NodeKind.merges
              (viewById keys (Dict.setEntries id listed byId)) (viewEntries keys idKey rest) := by
        intro listed hlisted
        apply mergeListsByKey_view (fun c hc => hentries c (List.mem_cons_of_mem _ hc)) hnodup.2
          (fun c hc => hlabelled c (List.mem_cons_of_mem _ hc)) ?_ (hself.set hlisted)
        intro other old hother hold
        have hne : other ≠ id := by
          rintro rfl
          exact hnodup.1 hother
        rw [findEntry_setEntries_ne listed hne] at hold
        exact hbase other old (List.mem_cons_of_mem _ hother) hold
      rw [mergeListsByKey, hvalue]
      simp only [hid]
      rw [viewEntries, hentryId, viewEntry, Tree.overlayChildren_cons, child_viewById]
      cases hfound : findEntry id byId with
      | none =>
          obtain ⟨merged, hmerged, hmergedSelf, hview⟩ := hrest fields hentryId
          refine ⟨merged, hmerged, hmergedSelf, ?_⟩
          rw [hview, viewById_setEntries]
          rfl
      | some old =>
          have hold := hbase id old (by simp [hentryId]) hfound
          obtain ⟨both, hboth, hbothView⟩ :=
            mergeFields_view hfields fun _ _ _ hvalue => labelled_getField hold hvalue
          have hbothId : entryId idKey (.object both) = some id :=
            entryId_of_merged (Tree.everywhere_node_iff.mp hfields).1.1 hvalue hid hbothView
          obtain ⟨merged, hmerged, hmergedSelf, hview⟩ := hrest both hbothId
          refine ⟨merged, ?_, hmergedSelf, ?_⟩
          · simp only [hboth]
            exact hmerged
          · rw [hview, viewById_setEntries, hbothView]
            rfl
  | .null :: _, hentries, _, _, _, _ => by
      exact absurd (hentries _ List.mem_cons_self) (by simp [entryId, IsEntry])
  | .bool _ :: _, hentries, _, _, _, _ => by
      exact absurd (hentries _ List.mem_cons_self) (by simp [entryId, IsEntry])
  | .number _ :: _, hentries, _, _, _, _ => by
      exact absurd (hentries _ List.mem_cons_self) (by simp [entryId, IsEntry])
  | .text _ :: _, hentries, _, _, _, _ => by
      exact absurd (hentries _ List.mem_cons_self) (by simp [entryId, IsEntry])
  | .list _ :: _, hentries, _, _, _, _ => by
      exact absurd (hentries _ List.mem_cons_self) (by simp [entryId, IsEntry])

end

end Refinement

section Override

/-- What is said of the result of a merge, path by path. -/
structure PathwiseOverride (keys : MergeKeys) (base override merged : Fields) : Prop where
  leaves : ∀ path value, (configTree keys merged).LeafAt path value ↔
    (configTree keys override).LeafAt path value ∨
      ((configTree keys base).LeafAt path value ∧ ¬ Tree.Overridden NodeKind.merges
        (configTree keys base) (configTree keys override) path)
  places : ∀ path, ((configTree keys merged).place path).isSome ↔
    ((configTree keys override).place path).isSome ∨
      (((configTree keys base).place path).isSome ∧ ¬ Tree.Overridden NodeKind.merges
        (configTree keys base) (configTree keys override) path)
  entries : ∀ path bs os, ¬ Tree.Overridden NodeKind.merges
      (configTree keys base) (configTree keys override) path →
    (configTree keys base).place path = some (.node .entries bs) →
    (configTree keys override).place path = some (.node .entries os) →
    ∃ ms, (configTree keys merged).place path = some (.node .entries ms) ∧
      ms.map Prod.fst =
        bs.map Prod.fst ++ (os.map Prod.fst).filter (fun id => id ∉ bs.map Prod.fst)
  again : deepMerge keys merged override = .ok merged

variable {keys : MergeKeys} {base override merged : Fields}

theorem Identified.distinct (h : Identified keys base) : Tree.Distinct (configTree keys base) :=
  Tree.Everywhere.mono (fun _ _ hlabelled => hlabelled.1) h

theorem isEntry_iff {label : Label} {t : ConfigTree} :
    IsEntry (label, t) ↔ ∃ id children, label = .entry (some id) ∧ t = .node .object children := by
  unfold IsEntry
  split
  · next id children heq =>
      simp only [Prod.mk.injEq] at heq
      simp [heq]
  · next hne =>
      simp only [false_iff]
      rintro ⟨id, children, rfl, rfl⟩
      exact hne id children rfl

theorem isEntry_overlay {label : Label} {old new : ConfigTree} (hold : IsEntry (label, old))
    (hnew : IsEntry (label, new)) :
    IsEntry (label, Tree.overlay NodeKind.merges old new) := by
  obtain ⟨id, bs, rfl, rfl⟩ := isEntry_iff.mp hold
  obtain ⟨_, os, _, rfl⟩ := isEntry_iff.mp hnew
  exact isEntry_iff.mpr ⟨id, _, rfl, Tree.overlay_joined rfl⟩

theorem labelled_overlayChildren (kind : NodeKind) (bs os : List (Label × ConfigTree))
    (hbs : Labelled kind bs) (hos : Labelled kind os) :
    Labelled kind (Tree.overlayChildren NodeKind.merges bs os) := by
  have hnodup : ((Tree.overlayChildren NodeKind.merges bs os).map Prod.fst).Nodup :=
    Tree.nodup_labels_overlayChildren hbs.1 hos.1
  refine ⟨hnodup, fun hkind c hc => ?_⟩
  have hchild := Tree.child_of_mem hnodup hc
  rw [Tree.child_overlayChildren hos.1] at hchild
  cases ho : Tree.child c.1 os with
  | none =>
      rw [ho] at hchild
      exact hbs.2 hkind _ (Tree.mem_of_child hchild)
  | some o =>
      have hover : IsEntry (c.1, o) := hos.2 hkind _ (Tree.mem_of_child ho)
      cases hb : Tree.child c.1 bs with
      | none =>
          rw [ho, hb] at hchild
          cases hchild
          exact hover
      | some b =>
          rw [ho, hb, Tree.overlayOption, Option.some.injEq] at hchild
          have hentry := isEntry_overlay (hbs.2 hkind _ (Tree.mem_of_child hb)) hover
          rwa [hchild] at hentry

/-- A merge overlays the trees of the two configurations, and its result is identified. -/
theorem deepMerge_view (hbase : Identified keys base) (hoverride : Identified keys override) :
    ∃ merged, deepMerge keys base override = .ok merged ∧ Identified keys merged ∧
      configTree keys merged =
        Tree.overlay NodeKind.merges (configTree keys base) (configTree keys override) := by
  have hbelow : ∀ key old, key ∈ override.map Prod.fst → getField base key = some old →
      Tree.Everywhere Labelled (viewValue keys key old) := by
    intro key old _ hold
    apply labelled_below hbase
    rw [child_viewFields, hold, Option.map_some]
  obtain ⟨merged, hmerged, hview⟩ := mergeFields_view hoverride hbelow
  have htree : configTree keys merged =
      Tree.overlay NodeKind.merges (configTree keys base) (configTree keys override) := by
    rw [configTree, hview]
    exact (Tree.overlay_joined rfl).symm
  refine ⟨merged, hmerged, ?_, htree⟩
  rw [Identified, htree]
  exact Tree.Everywhere.overlay (fun _ _ h => h.1)
    (fun kind bs os _ hbs hos => labelled_overlayChildren kind bs os hbs hos) hbase hoverride

theorem pathwiseOverride_of_view (hbase : Identified keys base)
    (hoverride : Identified keys override) (hmerged : Identified keys merged)
    (hview : configTree keys merged =
      Tree.overlay NodeKind.merges (configTree keys base) (configTree keys override)) :
    PathwiseOverride keys base override merged := by
  constructor
  · intro path value
    rw [hview]
    exact Tree.leafAt_overlay_iff hoverride.distinct path value
  · intro path
    rw [hview]
    exact Tree.isSome_place_overlay hoverride.distinct path
  · intro path bs os hpath hbs hos
    rw [hview]
    exact Tree.labels_overlay hoverride.distinct hpath hbs hos
  · obtain ⟨again, hagain, -, hagainView⟩ := deepMerge_view hmerged hoverride
    rw [hview, Tree.overlay_overlay hbase.distinct hoverride.distinct, ← hview, configTree,
      configTree, Tree.node.injEq] at hagainView
    rw [hagain, viewFields_injective hagainView.2]

/-- The leaves of the result are those of the most specific level that sets them. -/
def ResolvedByLevels (result : Except MergeError Fields) (levels : List Fields) : Prop :=
  ∃ merged, result = .ok merged ∧ ∀ path value,
    (configTree cascadeKeys merged).LeafAt path value ↔
      ∃ level, Tree.Resolves NodeKind.merges path value (levels.map (configTree cascadeKeys)) level

theorem mergeLevel_view {level : Fields} (hbase : Identified cascadeKeys base)
    (hlevel : Identified cascadeKeys level) :
    ∃ merged, mergeLevel base level = .ok merged ∧ Identified cascadeKeys merged ∧
      configTree cascadeKeys merged = Tree.overlay NodeKind.merges (configTree cascadeKeys base)
        (configTree cascadeKeys level) := by
  have hmerge : mergeLevel base level = deepMerge cascadeKeys base level := by
    cases level with
    | nil => rfl
    | cons field level => rfl
  rw [hmerge]
  exact deepMerge_view hbase hlevel

theorem foldlM_mergeLevel_view {levels : List Fields} (hbase : Identified cascadeKeys base)
    (hlevels : ∀ level ∈ levels, Identified cascadeKeys level) :
    ∃ merged, levels.foldlM mergeLevel base = .ok merged ∧
      configTree cascadeKeys merged = (levels.map (configTree cascadeKeys)).reverse.foldr
        (fun t base => Tree.overlay NodeKind.merges base t) (configTree cascadeKeys base) := by
  induction levels generalizing base with
  | nil => exact ⟨base, rfl, rfl⟩
  | cons level levels ih =>
      obtain ⟨next, hnext, hidentified, hview⟩ :=
        mergeLevel_view hbase (hlevels level List.mem_cons_self)
      obtain ⟨merged, hmerged, hmergedView⟩ :=
        ih hidentified fun other hother => hlevels other (List.mem_cons_of_mem _ hother)
      refine ⟨merged, ?_, ?_⟩
      · rw [List.foldlM_cons, hnext]
        exact hmerged
      · simp [hmergedView, hview]

theorem foldlM_mergeLevel_resolved {levels : List Fields} (hbase : Identified cascadeKeys base)
    (hlevels : ∀ level ∈ levels, Identified cascadeKeys level) :
    ResolvedByLevels (levels.foldlM mergeLevel base) (levels.reverse ++ [base]) := by
  obtain ⟨merged, hmerged, hview⟩ := foldlM_mergeLevel_view hbase hlevels
  refine ⟨merged, hmerged, fun path value => ?_⟩
  rw [hview, List.map_append, List.map_reverse]
  apply Tree.leafAt_levels_iff
  intro t ht
  obtain ⟨level, hlevel, rfl⟩ := List.mem_map.mp (List.mem_reverse.mp ht)
  exact (hlevels level hlevel).distinct

/-- A merge is a path-wise override, and a cascade resolves each value to the most specific level
that sets it. -/
theorem deepMerge_override :
    (∀ (keys : MergeKeys) (base override : Fields), Identified keys base →
      Identified keys override → ∃ merged, deepMerge keys base override = .ok merged ∧
        PathwiseOverride keys base override merged) ∧
    ∀ appDefaults globalConfig scenarioConfig : Fields, Identified cascadeKeys appDefaults →
      Identified cascadeKeys globalConfig → Identified cascadeKeys scenarioConfig →
      ResolvedByLevels (mergeExecutionConfig appDefaults globalConfig scenarioConfig)
        [scenarioConfig, globalConfig, appDefaults] ∧
      ResolvedByLevels (mergeTradeSimulatorConfig appDefaults globalConfig scenarioConfig)
        [scenarioConfig, globalConfig, appDefaults] ∧
      ResolvedByLevels (mergeStrategyConfig globalConfig scenarioConfig)
        [scenarioConfig, globalConfig] ∧
      ResolvedByLevels (mergeOrderGuardConfig globalConfig scenarioConfig)
        [scenarioConfig, globalConfig] ∧
      ResolvedByLevels (mergeStressTestConfig globalConfig scenarioConfig)
        [scenarioConfig, globalConfig] := by
  constructor
  · intro keys base override hbase hoverride
    obtain ⟨merged, hmerged, hidentified, hview⟩ := deepMerge_view hbase hoverride
    exact ⟨merged, hmerged, pathwiseOverride_of_view hbase hoverride hidentified hview⟩
  · intro appDefaults globalConfig scenarioConfig happ hglobal hscenario
    have hthree : ResolvedByLevels
        ([globalConfig, scenarioConfig].foldlM mergeLevel appDefaults)
        [scenarioConfig, globalConfig, appDefaults] :=
      foldlM_mergeLevel_resolved happ (by simp [hglobal, hscenario])
    have htwo : ResolvedByLevels ([scenarioConfig].foldlM mergeLevel globalConfig)
        [scenarioConfig, globalConfig] :=
      foldlM_mergeLevel_resolved hglobal (by simp [hscenario])
    exact ⟨hthree, hthree, htwo, htwo, htwo⟩

def brokerKeys : MergeKeys where
  atomicKeys := ["balances"]
  listMergeKeys := [("brokers", "broker_type")]

def baseConfig : Fields :=
  [("brokers", .list [.object [("broker_type", .text "mt5"), ("dry_run", .bool true)],
      .object [("broker_type", .text "kraken_spot"), ("dry_run", .bool true)]]),
    ("balances", .object [("EUR", .number 10000)])]

def overrideConfig : Fields :=
  [("brokers", .list [.object [("broker_type", .text "kraken_spot"), ("dry_run", .bool false)]]),
    ("balances", .object [("JPY", .number 50000)])]

example : deepMerge brokerKeys baseConfig overrideConfig =
    .ok [("brokers", .list [.object [("broker_type", .text "mt5"), ("dry_run", .bool true)],
        .object [("broker_type", .text "kraken_spot"), ("dry_run", .bool false)]]),
      ("balances", .object [("JPY", .number 50000)])] := by
  rfl

/-- A broker's entry is merged with the one of its type, and a scenario's configuration over the
defaults. -/
theorem deepMerge_override_brokers :
    (∃ merged, deepMerge brokerKeys baseConfig overrideConfig = .ok merged ∧
      PathwiseOverride brokerKeys baseConfig overrideConfig merged) ∧
      ResolvedByLevels (mergeExecutionConfig baseConfig [] overrideConfig)
        [overrideConfig, [], baseConfig] := by
  have hempty : Identified cascadeKeys [] := by
    simp [Identified, configTree, viewFields, Tree.everywhere_node_iff, Labelled]
  have hbase : ∀ keys ∈ [brokerKeys, cascadeKeys], Identified keys baseConfig := by
    simp [Identified, configTree, viewFields, viewValue, viewEntries, viewEntry, baseConfig,
      brokerKeys, cascadeKeys, MergeKeys.isAtomic, MergeKeys.idKey, Tree.everywhere_node_iff,
      Labelled, IsEntry, entryId, getField, identifier]
  have hoverride : ∀ keys ∈ [brokerKeys, cascadeKeys], Identified keys overrideConfig := by
    simp [Identified, configTree, viewFields, viewValue, viewEntries, viewEntry, overrideConfig,
      brokerKeys, cascadeKeys, MergeKeys.isAtomic, MergeKeys.idKey, Tree.everywhere_node_iff,
      Labelled, IsEntry, entryId, getField, identifier]
  obtain ⟨hmerge, hcascade⟩ := deepMerge_override
  exact ⟨hmerge brokerKeys _ _ (hbase _ (by simp)) (hoverride _ (by simp)),
    (hcascade _ _ _ (hbase _ (by simp)) hempty (hoverride _ (by simp))).1⟩

end Override

end Finiex.ConfigMerge
