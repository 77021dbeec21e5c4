import Finiex.Lib.Dict

/-!
# Secondary indexes

A dictionary whose values may carry a secondary key, and an index from secondary keys to the
keys of the dictionary. While the two agree, lookups through the index and back are inverse
to each other.
-/

namespace Finiex.Lib

variable {κ ρ α : Type} [DecidableEq κ] [DecidableEq ρ]

/-- The index holds exactly the secondary keys of what is stored. -/
def Indexes (key : α → Option ρ) (store : Dict κ α) (index : Dict ρ κ) : Prop :=
  ∀ r k, index.get? r = some k ↔ ∃ v, store.get? k = some v ∧ key v = some r

/-- The stored value with this secondary key. -/
def lookupBy (store : Dict κ α) (index : Dict ρ κ) (r : ρ) : Option α :=
  (index.get? r).bind store.get?

def keyOf (index : Dict ρ κ) (k : κ) : Option ρ :=
  (index.entries.find? fun e => decide (e.2 = k)).map Prod.fst

namespace Indexes

variable {key : α → Option ρ} {store : Dict κ α} {index : Dict ρ κ} {k : κ} {r : ρ} {v : α}

theorem empty (key : α → Option ρ) : Indexes key (∅ : Dict κ α) (∅ : Dict ρ κ) := by
  intro r k
  constructor
  · intro hget
    cases hget
  · rintro ⟨v, hget, -⟩
    cases hget

theorem unique (h : Indexes key store index) {r' : ρ} (hr : index.get? r = some k)
    (hr' : index.get? r' = some k) : r = r' := by
  obtain ⟨v, hv, hkey⟩ := (h r k).mp hr
  obtain ⟨v', hv', hkey'⟩ := (h r' k).mp hr'
  rw [hv] at hv'
  cases hv'
  exact Option.some.inj (hkey.symm.trans hkey')

theorem not_indexed (h : Indexes key store index)
    (hold : ∀ v, store.get? k = some v → key v = none) (r : ρ) : index.get? r ≠ some k := by
  intro hget
  obtain ⟨v, hv, hkey⟩ := (h r k).mp hget
  rw [hold v hv] at hkey
  cases hkey

/-- A value without a secondary key is stored where there was none. -/
theorem set_unkeyed (h : Indexes key store index)
    (hold : ∀ v, store.get? k = some v → key v = none) (hnew : key v = none) :
    Indexes key (store.set k v) index := by
  intro r' k'
  by_cases hk : k' = k
  · subst hk
    rw [Dict.get?_set_self]
    constructor
    · exact fun hget => absurd hget (h.not_indexed hold r')
    · rintro ⟨v', heq, hkey⟩
      cases heq
      rw [hnew] at hkey
      cases hkey
  · rw [Dict.get?_set_ne _ _ hk]
    exact h r' k'

/-- A value is stored and indexed under a new secondary key. -/
theorem set_keyed (h : Indexes key store index)
    (hold : ∀ v, store.get? k = some v → key v = none) (hnew : key v = some r)
    (hfresh : index.get? r = none) : Indexes key (store.set k v) (index.set r k) := by
  intro r' k'
  by_cases hr : r' = r
  · subst hr
    rw [Dict.get?_set_self]
    constructor
    · intro hget
      cases hget
      exact ⟨v, Dict.get?_set_self _ _ _, hnew⟩
    · rintro ⟨v', hget, hkey⟩
      by_cases hk : k' = k
      · rw [hk]
      · rw [Dict.get?_set_ne _ _ hk] at hget
        rw [(h r' k').mpr ⟨v', hget, hkey⟩] at hfresh
        cases hfresh
  · rw [Dict.get?_set_ne _ _ hr]
    by_cases hk : k' = k
    · subst hk
      rw [Dict.get?_set_self]
      constructor
      · exact fun hget => absurd hget (h.not_indexed hold r')
      · rintro ⟨v', heq, hkey⟩
        cases heq
        exact absurd (Option.some.inj (hkey.symm.trans hnew)) hr
    · rw [Dict.get?_set_ne _ _ hk]
      exact h r' k'

/-- An indexed value is removed with its index entry. -/
theorem erase (h : Indexes key store index) (hget : index.get? r = some k) :
    Indexes key (store.erase k) (index.erase r) := by
  intro r' k'
  by_cases hr : r' = r
  · subst hr
    rw [Dict.get?_erase_self]
    constructor
    · intro hnone
      cases hnone
    · rintro ⟨v', hv', hkey⟩
      by_cases hk : k' = k
      · rw [hk, Dict.get?_erase_self] at hv'
        cases hv'
      · rw [Dict.get?_erase_ne _ hk] at hv'
        have heq := (h r' k').mpr ⟨v', hv', hkey⟩
        exact absurd (Option.some.inj (heq.symm.trans hget)) hk
  · rw [Dict.get?_erase_ne _ hr]
    by_cases hk : k' = k
    · subst hk
      rw [Dict.get?_erase_self]
      constructor
      · exact fun hget' => absurd (h.unique hget' hget) hr
      · rintro ⟨v', hnone, -⟩
        cases hnone
    · rw [Dict.get?_erase_ne _ hk]
      exact h r' k'

/-- A value without a secondary key is removed. -/
theorem erase_unkeyed (h : Indexes key store index)
    (hold : ∀ v, store.get? k = some v → key v = none) : Indexes key (store.erase k) index := by
  intro r' k'
  by_cases hk : k' = k
  · subst hk
    rw [Dict.get?_erase_self]
    constructor
    · exact fun hget => absurd hget (h.not_indexed hold r')
    · rintro ⟨v', hnone, -⟩
      cases hnone
  · rw [Dict.get?_erase_ne _ hk]
    exact h r' k'

/-- A stored value moves to a new secondary key. -/
theorem rekey (h : Indexes key store index) {r' : ρ} (hget : index.get? r = some k)
    (hnew : key v = some r') (hfresh : index.get? r' = none) :
    Indexes key (store.set k v) ((index.erase r).set r' k) := by
  have herased := h.erase hget
  have hne : r' ≠ r := by
    rintro rfl
    rw [hget] at hfresh
    cases hfresh
  have hfresh' : (index.erase r).get? r' = none := (Dict.get?_erase_ne _ hne).trans hfresh
  have hset := herased.set_keyed (k := k) (fun v' hv' => by
    rw [Dict.get?_erase_self] at hv'
    cases hv') hnew hfresh'
  intro r'' k'
  rw [hset r'' k']
  by_cases hk : k' = k
  · rw [hk, Dict.get?_set_self, Dict.get?_set_self]
  · rw [Dict.get?_set_ne _ _ hk, Dict.get?_set_ne _ _ hk, Dict.get?_erase_ne _ hk]

theorem lookupBy_eq_some (h : Indexes key store index) :
    lookupBy store index r = some v ↔ ∃ k, index.get? r = some k ∧ store.get? k = some v ∧
      key v = some r := by
  rw [lookupBy, Option.bind_eq_some_iff]
  constructor
  · rintro ⟨k, hr, hv⟩
    obtain ⟨v', hv', hkey⟩ := (h r k).mp hr
    rw [hv] at hv'
    cases hv'
    exact ⟨k, hr, hv, hkey⟩
  · rintro ⟨k, hr, hv, -⟩
    exact ⟨k, hr, hv⟩

/-- The reverse lookup is inverse to the index. -/
theorem keyOf_eq_some (h : Indexes key store index) :
    keyOf index k = some r ↔ index.get? r = some k := by
  rw [keyOf, Option.map_eq_some_iff]
  constructor
  · rintro ⟨⟨r', k'⟩, hfind, rfl⟩
    have hk : k' = k := by simpa using List.find?_some hfind
    subst hk
    exact (Dict.get?_eq_some_iff index).mpr (List.mem_of_find?_eq_some hfind)
  · intro hget
    have hmem := (Dict.get?_eq_some_iff index).mp hget
    cases hfind : index.entries.find? fun e => decide (e.2 = k) with
    | none =>
        have hnone := List.find?_eq_none.mp hfind (r, k) hmem
        simp at hnone
    | some e =>
        obtain ⟨r', k'⟩ := e
        have hk : k' = k := by simpa using List.find?_some hfind
        subst hk
        have hget' := (Dict.get?_eq_some_iff index).mpr (List.mem_of_find?_eq_some hfind)
        exact ⟨(r', k'), rfl, h.unique hget' hget⟩

end Indexes

end Finiex.Lib
