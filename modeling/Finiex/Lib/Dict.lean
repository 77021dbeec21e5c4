import Finiex.Lib.Pointwise
import Finiex.Lib.Run
import Mathlib.Algebra.BigOperators.Group.List.Basic
import Mathlib.Data.List.Nodup
import Mathlib.Data.List.Perm.Basic

/-!
# Insertion-ordered dictionaries

Dictionaries that iterate in insertion order: assigning to a present key keeps
its place, assigning to a new key appends it.
-/

namespace Finiex.Lib

/-- An insertion-ordered dictionary: a list of entries with distinct keys. -/
structure Dict (κ α : Type) where
  entries : List (κ × α)
  nodup : (entries.map Prod.fst).Nodup
  deriving DecidableEq

namespace Dict

open Finiex.Lib.Run

variable {κ α σ ε : Type}

def empty : Dict κ α := ⟨[], by simp⟩

instance : Inhabited (Dict κ α) := ⟨empty⟩

instance : EmptyCollection (Dict κ α) := ⟨empty⟩

def keys (d : Dict κ α) : List κ := d.entries.map Prod.fst

def values (d : Dict κ α) : List α := d.entries.map Prod.snd

def size (d : Dict κ α) : ℕ := d.entries.length

def isEmpty (d : Dict κ α) : Bool := d.entries.isEmpty

theorem nodup_entries (d : Dict κ α) : d.entries.Nodup := d.nodup.of_map _

theorem ext {d e : Dict κ α} (h : d.entries = e.entries) : d = e := by
  cases d
  cases e
  simpa using h

theorem snd_eq_of_mem (d : Dict κ α) {k : κ} {v w : α}
    (hv : (k, v) ∈ d.entries) (hw : (k, w) ∈ d.entries) : v = w := by
  have hinj := List.inj_on_of_nodup_map d.nodup hv hw rfl
  simpa using hinj

/-- The entries whose value meets `p`. -/
def filter (p : α → Bool) (d : Dict κ α) : Dict κ α :=
  ⟨d.entries.filter fun e => p e.2, d.nodup.sublist (List.filter_sublist.map Prod.fst)⟩

theorem values_filter (p : α → Bool) (d : Dict κ α) :
    (d.filter p).values = d.values.filter p := by
  simp [values, filter, List.filter_map, Function.comp_def]

section Lookup

variable [DecidableEq κ]

/-- The value stored under `k`. -/
def get? (d : Dict κ α) (k : κ) : Option α :=
  (d.entries.find? fun e => decide (e.1 = k)).map Prod.snd

def contains (d : Dict κ α) (k : κ) : Bool := (d.get? k).isSome

/-- The value stored under `k`, or `default`. -/
def getD (d : Dict κ α) (k : κ) (default : α) : α := (d.get? k).getD default

theorem get?_eq_some_iff (d : Dict κ α) {k : κ} {v : α} :
    d.get? k = some v ↔ (k, v) ∈ d.entries := by
  constructor
  · intro h
    obtain ⟨e, he, rfl⟩ := Option.map_eq_some_iff.mp h
    have hkey : e.1 = k := by simpa using List.find?_some he
    subst hkey
    exact List.mem_of_find?_eq_some he
  · intro h
    unfold get?
    cases hfind : d.entries.find? (fun e => decide (e.1 = k)) with
    | none =>
        have := List.find?_eq_none.mp hfind (k, v) h
        simp at this
    | some e =>
        have hkey : e.1 = k := by simpa using List.find?_some hfind
        have hmem : (k, e.2) ∈ d.entries := by
          rw [← hkey]
          exact List.mem_of_find?_eq_some hfind
        simpa using d.snd_eq_of_mem hmem h

theorem get?_of_filter {d : Dict κ α} {p : α → Bool} {k : κ} {v : α}
    (h : (d.filter p).get? k = some v) : d.get? k = some v := by
  rw [get?_eq_some_iff] at h ⊢
  exact List.mem_of_mem_filter h

theorem get?_eq_none_iff (d : Dict κ α) {k : κ} :
    d.get? k = none ↔ k ∉ d.keys := by
  constructor
  · intro h hk
    obtain ⟨⟨k', v⟩, he, rfl⟩ := List.mem_map.mp hk
    rw [d.get?_eq_some_iff.mpr he] at h
    cases h
  · intro hk
    cases h : d.get? k with
    | none => rfl
    | some v =>
        exact absurd (List.mem_map_of_mem (d.get?_eq_some_iff.mp h)) hk

theorem mem_values_of_get? {d : Dict κ α} {k : κ} {v : α}
    (h : d.get? k = some v) : v ∈ d.values :=
  List.mem_map_of_mem (d.get?_eq_some_iff.mp h)

theorem get?_of_mem_values {d : Dict κ α} {v : α} (h : v ∈ d.values) :
    ∃ k, d.get? k = some v := by
  obtain ⟨⟨k, v'⟩, he, rfl⟩ := List.mem_map.mp h
  exact ⟨k, d.get?_eq_some_iff.mpr he⟩

@[simp] theorem get?_empty (k : κ) : (∅ : Dict κ α).get? k = none := rfl

end Lookup

section Update

variable [DecidableEq κ]

/-- Assignment on the entry list: in place when the key occurs, else at the end. -/
def setEntries (k : κ) (v : α) : List (κ × α) → List (κ × α)
  | [] => [(k, v)]
  | e :: es => if e.1 = k then (k, v) :: es else e :: setEntries k v es

def eraseEntries (k : κ) (es : List (κ × α)) : List (κ × α) :=
  es.filter fun e => !decide (e.1 = k)

theorem mem_keys_setEntries {k a : κ} {v : α} {es : List (κ × α)} :
    a ∈ (setEntries k v es).map Prod.fst ↔ a = k ∨ a ∈ es.map Prod.fst := by
  induction es with
  | nil => simp [setEntries]
  | cons e es ih =>
      unfold setEntries
      split
      · next h =>
          subst h
          simp
      · simp only [List.map_cons, List.mem_cons, ih]
        tauto

theorem setEntries_of_notMem {k : κ} {v : α} {es : List (κ × α)} (h : k ∉ es.map Prod.fst) :
    setEntries k v es = es ++ [(k, v)] := by
  induction es with
  | nil => rfl
  | cons e es ih =>
      simp only [List.map_cons, List.mem_cons, not_or] at h
      rw [setEntries, if_neg (Ne.symm h.1), ih h.2]
      rfl

theorem nodup_setEntries {k : κ} {v : α} {es : List (κ × α)}
    (h : (es.map Prod.fst).Nodup) : ((setEntries k v es).map Prod.fst).Nodup := by
  induction es with
  | nil => simp [setEntries]
  | cons e es ih =>
      simp only [List.map_cons, List.nodup_cons] at h
      unfold setEntries
      split
      · next hk =>
          subst hk
          simpa using h
      · next hk =>
          simp only [List.map_cons, List.nodup_cons]
          refine ⟨?_, ih h.2⟩
          rw [mem_keys_setEntries]
          rintro (heq | hmem)
          · exact hk heq
          · exact h.1 hmem

def set (d : Dict κ α) (k : κ) (v : α) : Dict κ α :=
  ⟨setEntries k v d.entries, nodup_setEntries d.nodup⟩

def erase (d : Dict κ α) (k : κ) : Dict κ α :=
  ⟨eraseEntries k d.entries, d.nodup.sublist (List.filter_sublist.map Prod.fst)⟩

theorem mem_erase_entries {d : Dict κ α} {k : κ} {e : κ × α} :
    e ∈ (d.erase k).entries ↔ e ∈ d.entries ∧ e.1 ≠ k := by
  simp [erase, eraseEntries]

theorem mem_setEntries {k : κ} {v : α} {es : List (κ × α)}
    (h : (es.map Prod.fst).Nodup) {e : κ × α} :
    e ∈ setEntries k v es ↔ e = (k, v) ∨ (e ∈ es ∧ e.1 ≠ k) := by
  induction es with
  | nil => simp [setEntries]
  | cons b es ih =>
      simp only [List.map_cons, List.nodup_cons] at h
      unfold setEntries
      split
      · next hk =>
          subst hk
          simp only [List.mem_cons]
          constructor
          · rintro (heq | hmem)
            · exact .inl heq
            · refine .inr ⟨.inr hmem, fun hkey => h.1 ?_⟩
              rw [← hkey]
              exact List.mem_map_of_mem hmem
          · rintro (heq | ⟨rfl | hmem, hne⟩)
            · exact .inl heq
            · exact absurd rfl hne
            · exact .inr hmem
      · next hk =>
          simp only [List.mem_cons, ih h.2]
          constructor
          · rintro (rfl | heq | hmem)
            · exact .inr ⟨.inl rfl, hk⟩
            · exact .inl heq
            · exact .inr ⟨.inr hmem.1, hmem.2⟩
          · rintro (heq | ⟨rfl | hmem, hne⟩)
            · exact .inr (.inl heq)
            · exact .inl rfl
            · exact .inr (.inr ⟨hmem, hne⟩)

theorem mem_set_entries {d : Dict κ α} {k : κ} {v : α} {e : κ × α} :
    e ∈ (d.set k v).entries ↔ e = (k, v) ∨ (e ∈ d.entries ∧ e.1 ≠ k) :=
  mem_setEntries d.nodup

@[simp] theorem get?_set_self (d : Dict κ α) (k : κ) (v : α) :
    (d.set k v).get? k = some v :=
  (get?_eq_some_iff _).mpr (mem_set_entries.mpr (.inl rfl))

theorem get?_set_ne (d : Dict κ α) {k a : κ} (v : α) (h : a ≠ k) :
    (d.set k v).get? a = d.get? a := by
  ext w
  simp only [get?_eq_some_iff, mem_set_entries]
  constructor
  · rintro (heq | hmem)
    · exact absurd (Prod.mk.inj heq).1 h
    · exact hmem.1
  · intro hmem
    exact .inr ⟨hmem, h⟩

@[simp] theorem get?_erase_self (d : Dict κ α) (k : κ) :
    (d.erase k).get? k = none := by
  rw [get?_eq_none_iff]
  intro hk
  obtain ⟨e, he, rfl⟩ := List.mem_map.mp hk
  exact (mem_erase_entries.mp he).2 rfl

theorem get?_erase_ne (d : Dict κ α) {k a : κ} (h : a ≠ k) :
    (d.erase k).get? a = d.get? a := by
  ext w
  simp only [get?_eq_some_iff, mem_erase_entries]
  exact ⟨fun hmem => hmem.1, fun hmem => ⟨hmem, h⟩⟩

theorem mem_values_set {d : Dict κ α} {k : κ} {v w : α} (h : w ∈ (d.set k v).values) :
    w = v ∨ w ∈ d.values := by
  obtain ⟨e, he, rfl⟩ := List.mem_map.mp h
  rcases mem_set_entries.mp he with rfl | ⟨hmem, -⟩
  · exact .inl rfl
  · exact .inr (List.mem_map_of_mem hmem)

/-- Looking a key up splits its entry off the dictionary. -/
theorem entries_perm_of_get? {d : Dict κ α} {k : κ} {v : α} (h : d.get? k = some v) :
    d.entries.Perm ((k, v) :: (d.erase k).entries) := by
  have hmem := d.get?_eq_some_iff.mp h
  have hnot : (k, v) ∉ (d.erase k).entries := fun hk =>
    (mem_erase_entries.mp hk).2 rfl
  refine (List.perm_ext_iff_of_nodup d.nodup_entries
    (List.nodup_cons.mpr ⟨hnot, (d.erase k).nodup_entries⟩)).mpr fun e => ?_
  rw [List.mem_cons, mem_erase_entries]
  constructor
  · intro he
    by_cases hk : e.1 = k
    · subst hk
      exact .inl (Prod.ext rfl (d.snd_eq_of_mem he hmem))
    · exact .inr ⟨he, hk⟩
  · rintro (rfl | he)
    · exact hmem
    · exact he.1

/-- Assigning to a key replaces whatever stood under it. -/
theorem set_entries_perm (d : Dict κ α) (k : κ) (v : α) :
    (d.set k v).entries.Perm ((k, v) :: (d.erase k).entries) := by
  have hnot : (k, v) ∉ (d.erase k).entries := fun hk =>
    (mem_erase_entries.mp hk).2 rfl
  refine (List.perm_ext_iff_of_nodup (d.set k v).nodup_entries
    (List.nodup_cons.mpr ⟨hnot, (d.erase k).nodup_entries⟩)).mpr fun e => ?_
  rw [List.mem_cons, mem_set_entries, mem_erase_entries]

theorem erase_eq_self_of_get?_none {d : Dict κ α} {k : κ} (h : d.get? k = none) :
    d.erase k = d := by
  apply ext
  refine List.filter_eq_self.mpr fun e he => ?_
  have hne : e.1 ≠ k := by
    rintro rfl
    exact d.get?_eq_none_iff.mp h (List.mem_map_of_mem he)
  simpa using hne

theorem values_perm_of_get? {d : Dict κ α} {k : κ} {v : α} (h : d.get? k = some v) :
    d.values.Perm (v :: (d.erase k).values) :=
  (entries_perm_of_get? h).map Prod.snd

theorem values_set_perm (d : Dict κ α) (k : κ) (v : α) :
    (d.set k v).values.Perm (v :: (d.erase k).values) :=
  (set_entries_perm d k v).map Prod.snd

/-- A dictionary that holds `f v` exactly where another holds `v` has the mapped values. -/
theorem values_perm_map {β : Type} {d : Dict κ α} {e : Dict κ β} {f : α → β}
    (h : ∀ k, e.get? k = (d.get? k).map f) : e.values.Perm (d.values.map f) := by
  have hkeys : (d.entries.map fun entry => (entry.1, f entry.2)).Nodup := by
    refine List.Nodup.of_map Prod.fst ?_
    rw [List.map_map]
    exact d.nodup
  have hperm : e.entries.Perm (d.entries.map fun entry => (entry.1, f entry.2)) := by
    refine (List.perm_ext_iff_of_nodup e.nodup_entries hkeys).mpr fun entry => ?_
    obtain ⟨k, w⟩ := entry
    rw [← e.get?_eq_some_iff, h k, Option.map_eq_some_iff, List.mem_map]
    constructor
    · rintro ⟨v, hv, rfl⟩
      exact ⟨(k, v), d.get?_eq_some_iff.mp hv, rfl⟩
    · rintro ⟨⟨k', v⟩, hmem, heq⟩
      cases heq
      exact ⟨v, d.get?_eq_some_iff.mpr hmem, rfl⟩
  have hvalues := hperm.map Prod.snd
  rw [List.map_map] at hvalues
  rw [values, values, List.map_map]
  exact hvalues

end Update

section Traversal

/-- Visit the entries in order, replacing each value and threading an accumulator. -/
def mapAccumEntries (f : σ → α → Except ε (σ × α)) :
    σ → List (κ × α) → Except ε (σ × List (κ × α))
  | s, [] => .ok (s, [])
  | s, (k, v) :: es => do
      let (s', v') ← f s v
      let (s'', es') ← mapAccumEntries f s' es
      return (s'', (k, v') :: es')

/-- Two entries of one key whose values are related by some visit of `f`. -/
def Visited (f : σ → α → Except ε (σ × α)) (e e' : κ × α) : Prop :=
  e.1 = e'.1 ∧ ∃ s s', f s e.2 = .ok (s', e'.2)

theorem mapAccumEntries_forall₂ {f : σ → α → Except ε (σ × α)} {s s' : σ}
    {es es' : List (κ × α)} (h : mapAccumEntries f s es = .ok (s', es')) :
    List.Forall₂ (Visited f) es es' := by
  induction es generalizing s es' with
  | nil =>
      cases h
      exact .nil
  | cons e es ih =>
      obtain ⟨k, v⟩ := e
      simp only [mapAccumEntries, bind_eq_ok, Prod.exists] at h
      obtain ⟨t, v', hf, t', es'', hrest, hpure⟩ := h
      cases hpure
      exact .cons ⟨rfl, s, t, hf⟩ (ih hrest)

theorem keys_eq_of_visited {f : σ → α → Except ε (σ × α)} {es es' : List (κ × α)}
    (h : List.Forall₂ (Visited f) es es') :
    es.map Prod.fst = es'.map Prod.fst := by
  induction h with
  | nil => rfl
  | cons hhead _ ih => simp [hhead.1, ih]

/-- Visit the values in order, replacing each and threading an accumulator. -/
def mapAccumM (f : σ → α → Except ε (σ × α)) (s : σ) (d : Dict κ α) :
    Except ε (σ × Dict κ α) :=
  match h : mapAccumEntries f s d.entries with
  | .error e => .error e
  | .ok (s', es') =>
      .ok (s', ⟨es', keys_eq_of_visited (mapAccumEntries_forall₂ h) ▸ d.nodup⟩)

theorem mapAccumM_forall₂ {f : σ → α → Except ε (σ × α)} {s s' : σ} {d d' : Dict κ α}
    (h : d.mapAccumM f s = .ok (s', d')) :
    List.Forall₂ (Visited f) d.entries d'.entries := by
  unfold mapAccumM at h
  split at h
  · cases h
  · next hes =>
      cases h
      exact mapAccumEntries_forall₂ hes

section Sums

variable {β : Type} [AddCommGroup β] {f : σ → α → Except ε (σ × α)} {m : σ → β} {g : α → β}

theorem mapAccumEntries_sum
    (hf : ∀ s v s' v', f s v = .ok (s', v') → m s' - g v' = m s - g v) {s s' : σ}
    {es es' : List (κ × α)} (h : mapAccumEntries f s es = .ok (s', es')) :
    m s' - (es'.map fun e => g e.2).sum = m s - (es.map fun e => g e.2).sum := by
  induction es generalizing s es' with
  | nil =>
      cases h
      rfl
  | cons e es ih =>
      obtain ⟨k, v⟩ := e
      simp only [mapAccumEntries, bind_eq_ok, Prod.exists] at h
      obtain ⟨t, v', hvisit, t', es'', hrest, hpure⟩ := h
      cases hpure
      rw [List.map_cons, List.sum_cons, List.map_cons, List.sum_cons, ← sub_sub, sub_right_comm,
        ih hrest, sub_right_comm, hf s v t v' hvisit, sub_sub]

/-- What each visit moves between the accumulator and the value it replaces, the traversal moves
between the accumulator and all values. -/
theorem mapAccumM_sum (hf : ∀ s v s' v', f s v = .ok (s', v') → m s' - g v' = m s - g v)
    {s s' : σ} {d d' : Dict κ α} (h : d.mapAccumM f s = .ok (s', d')) :
    m s' - (d'.values.map g).sum = m s - (d.values.map g).sum := by
  unfold mapAccumM at h
  split at h
  · cases h
  · next hes =>
      cases h
      rw [values, values, List.map_map, List.map_map]
      exact mapAccumEntries_sum hf hes

end Sums

section Lookup

variable [DecidableEq κ]

/-- A traversal leaves each key with the value one visit made of it. -/
theorem mapAccumM_get? {f : σ → α → Except ε (σ × α)} {s s' : σ} {d d' : Dict κ α}
    (h : d.mapAccumM f s = .ok (s', d')) {k : κ} {v : α} (hv : d.get? k = some v) :
    ∃ v' t t', d'.get? k = some v' ∧ f t v = .ok (t', v') := by
  have hrel := (mapAccumM_forall₂ h).flip
  obtain ⟨e', he', hkey, t, t', hf⟩ :=
    Pointwise.exists_left hrel (d.get?_eq_some_iff.mp hv)
  refine ⟨e'.2, t, t', ?_, hf⟩
  rw [get?_eq_some_iff]
  have hpair : e' = (k, e'.2) := Prod.ext hkey.symm rfl
  rwa [hpair] at he'

theorem mapAccumM_get?_of_result {f : σ → α → Except ε (σ × α)} {s s' : σ}
    {d d' : Dict κ α} (h : d.mapAccumM f s = .ok (s', d')) {k : κ} {v' : α}
    (hv : d'.get? k = some v') :
    ∃ v t t', d.get? k = some v ∧ f t v = .ok (t', v') := by
  obtain ⟨e, he, hkey, t, t', hf⟩ :=
    Pointwise.exists_left (mapAccumM_forall₂ h) (d'.get?_eq_some_iff.mp hv)
  refine ⟨e.2, t, t', ?_, hf⟩
  rw [get?_eq_some_iff]
  have hpair : e = (k, e.2) := Prod.ext hkey rfl
  rwa [hpair] at he

theorem mapAccumM_get?_none {f : σ → α → Except ε (σ × α)} {s s' : σ}
    {d d' : Dict κ α} (h : d.mapAccumM f s = .ok (s', d')) {k : κ}
    (hnone : d.get? k = none) : d'.get? k = none := by
  cases hv : d'.get? k with
  | none => rfl
  | some v' =>
      obtain ⟨v, -, -, hget, -⟩ := mapAccumM_get?_of_result h hv
      rw [hnone] at hget
      cases hget

end Lookup

end Traversal

end Dict

end Finiex.Lib
