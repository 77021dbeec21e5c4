import Finiex.Lib.Dict
import Mathlib.Algebra.Field.Rat
import Mathlib.Order.BooleanAlgebra.Basic

namespace Finiex.Lib.PythonJson

section Values

inductive PyFloat
  | finite (value : ℚ)
  | infinity
  | negInfinity
  | nan
  deriving DecidableEq

/-- The key of a dictionary; one of another type is known by its type and its text. -/
inductive PyKey
  | none
  | bool (value : Bool)
  | int (value : ℤ)
  | float (value : PyFloat)
  | text (value : String)
  | other (typeName text : String)
  deriving DecidableEq

inductive PyValue
  | none
  | bool (value : Bool)
  | int (value : ℤ)
  | float (value : PyFloat)
  | text (value : String)
  | list (items : List PyValue)
  | tuple (items : List PyValue)
  | dict (entries : List (PyKey × PyValue))
  | other (typeName : String)

/-- What a JSON text says; the keys of its objects may be repeated. -/
inductive JsonText
  | null
  | bool (value : Bool)
  | int (value : ℤ)
  | float (value : PyFloat)
  | text (value : String)
  | array (items : List JsonText)
  | object (entries : List (String × JsonText))

namespace PyValue

/-- `bool(value)`; an object of another type is true. -/
def truthy : PyValue → Bool
  | .none => false
  | .bool value => value
  | .int value => decide (value ≠ 0)
  | .float value => decide (value ≠ .finite 0)
  | .text value => decide (value ≠ "")
  | .list items => !items.isEmpty
  | .tuple items => !items.isEmpty
  | .dict entries => !entries.isEmpty
  | .other _ => true

/-- `len(value)`, of the values that have one. -/
def length : PyValue → Option ℕ
  | .text value => some value.length
  | .list items => some items.length
  | .tuple items => some items.length
  | .dict entries => some entries.length
  | _ => Option.none

def typeName : PyValue → String
  | .none => "NoneType"
  | .bool _ => "bool"
  | .int _ => "int"
  | .float _ => "float"
  | .text _ => "str"
  | .list _ => "list"
  | .tuple _ => "tuple"
  | .dict _ => "dict"
  | .other typeName => typeName

end PyValue

end Values

section Equality

/-- Booleans and whole numbers are compared with floats by their number. -/
def floatEq : PyFloat → PyFloat → Bool
  | .finite value, .finite other => decide (value = other)
  | .infinity, .infinity => true
  | .negInfinity, .negInfinity => true
  | _, _ => false

def ofBool (value : Bool) : PyFloat := .finite (if value then 1 else 0)

namespace PyKey

def number : PyKey → Option PyFloat
  | .bool value => some (ofBool value)
  | .int value => some (.finite value)
  | .float value => some value
  | _ => Option.none

/-- `key == other`, where an object of another type is equal to none but those of its text. -/
def eq (key other : PyKey) : Bool :=
  match key.number, other.number with
  | some value, some otherValue => floatEq value otherValue
  | Option.none, Option.none => decide (key = other)
  | _, _ => false

end PyKey

namespace PyValue

def number : PyValue → Option PyFloat
  | .bool value => some (ofBool value)
  | .int value => some (.finite value)
  | .float value => some value
  | _ => Option.none

end PyValue

mutual

/-- `value == other`; objects of another type are left out of it. -/
def eq : PyValue → PyValue → Bool
  | .none, .none => true
  | .text value, .text other => decide (value = other)
  | .list items, .list others => eqItems items others
  | .tuple items, .tuple others => eqItems items others
  | .dict entries, .dict others =>
      decide (entries.length = others.length) && eqEntries others entries
  | value, other =>
      match value.number, other.number with
      | some number, some otherNumber => floatEq number otherNumber
      | _, _ => false

def eqItems : List PyValue → List PyValue → Bool
  | [], [] => true
  | item :: items, other :: others => eq item other && eqItems items others
  | _, _ => false

def eqEntries (others : List (PyKey × PyValue)) : List (PyKey × PyValue) → Bool
  | [] => true
  | (key, value) :: rest =>
      (match others.find? fun other => key.eq other.1 with
        | some other => eq value other.2
        | none => false) && eqEntries others rest

end

end Equality

section Json

variable (floatRepr : ℚ → String)

def PyKey.dumps : PyKey → Option String
  | .none => some "null"
  | .bool true => some "true"
  | .bool false => some "false"
  | .int value => some (toString value)
  | .float (.finite value) => some (floatRepr value)
  | .float .infinity => some "Infinity"
  | .float .negInfinity => some "-Infinity"
  | .float .nan => some "NaN"
  | .text value => some value
  | .other _ _ => Option.none

mutual

/-- `json.dumps`; nothing is written of a value that holds an object of another type. -/
def dumps : PyValue → Option JsonText
  | .none => some .null
  | .bool value => some (.bool value)
  | .int value => some (.int value)
  | .float value => some (.float value)
  | .text value => some (.text value)
  | .list items => (dumpsItems items).map .array
  | .tuple items => (dumpsItems items).map .array
  | .dict entries => (dumpsEntries entries).map .object
  | .other _ => Option.none

def dumpsItems : List PyValue → Option (List JsonText)
  | [] => some []
  | item :: items => do
      let text ← dumps item
      let texts ← dumpsItems items
      return text :: texts

def dumpsEntries : List (PyKey × PyValue) → Option (List (String × JsonText))
  | [] => some []
  | (key, value) :: rest => do
      let name ← key.dumps floatRepr
      let text ← dumps value
      let texts ← dumpsEntries rest
      return (name, text) :: texts

end

mutual

/-- `json.loads`; of several entries with one key the last one stays. -/
def loads : JsonText → PyValue
  | .null => .none
  | .bool value => .bool value
  | .int value => .int value
  | .float value => .float value
  | .text value => .text value
  | .array items => .list (loadsItems items)
  | .object entries => .dict (loadsEntries [] entries)

def loadsItems : List JsonText → List PyValue
  | [] => []
  | item :: items => loads item :: loadsItems items

def loadsEntries (loaded : List (PyKey × PyValue)) :
    List (String × JsonText) → List (PyKey × PyValue)
  | [] => loaded
  | (name, value) :: rest =>
      loadsEntries (Dict.setEntries (.text name) (loads value) loaded) rest

end

end Json

section Primitives

def isText : PyKey → Bool
  | .text _ => true
  | _ => false

mutual

/-- Built of `str`, `int`, `float`, `bool`, `None`, lists and dictionaries with texts as keys; a
NaN is not equal to itself. -/
def isJson : PyValue → Bool
  | .none => true
  | .bool _ => true
  | .int _ => true
  | .float value => decide (value ≠ .nan)
  | .text _ => true
  | .list items => isJsonItems items
  | .tuple _ => false
  | .dict entries => isJsonEntries entries
  | .other _ => false

def isJsonItems : List PyValue → Bool
  | [] => true
  | item :: items => isJson item && isJsonItems items

def isJsonEntries : List (PyKey × PyValue) → Bool
  | [] => true
  | (key, value) :: rest =>
      isText key && decide (key ∉ rest.map Prod.fst) && isJson value && isJsonEntries rest

end

variable {floatRepr : ℚ → String}

mutual

/-- Such a value is written, and read back as it was. -/
theorem loads_dumps : ∀ value, isJson value →
    ∃ text, dumps floatRepr value = some text ∧ loads text = value
  | .none, _ => ⟨_, rfl, rfl⟩
  | .bool _, _ => ⟨_, rfl, rfl⟩
  | .int _, _ => ⟨_, rfl, rfl⟩
  | .float _, _ => ⟨_, rfl, rfl⟩
  | .text _, _ => ⟨_, rfl, rfl⟩
  | .list items, h => by
      obtain ⟨texts, htexts, hitems⟩ := loadsItems_dumpsItems items h
      exact ⟨.array texts, by rw [dumps, htexts, Option.map_some], by rw [loads, hitems]⟩
  | .tuple _, h => by simp [isJson] at h
  | .dict entries, h => by
      obtain ⟨texts, htexts, hentries⟩ := loadsEntries_dumpsEntries entries h [] (by simp)
      exact ⟨.object texts, by rw [dumps, htexts, Option.map_some],
        by rw [loads, hentries, List.nil_append]⟩
  | .other _, h => by simp [isJson] at h

theorem loadsItems_dumpsItems : ∀ items, isJsonItems items →
    ∃ texts, dumpsItems floatRepr items = some texts ∧ loadsItems texts = items
  | [], _ => ⟨[], rfl, rfl⟩
  | item :: items, h => by
      simp only [isJsonItems, Bool.and_eq_true] at h
      obtain ⟨text, htext, hitem⟩ := loads_dumps item h.1
      obtain ⟨texts, htexts, hitems⟩ := loadsItems_dumpsItems items h.2
      exact ⟨text :: texts, by simp [dumpsItems, htext, htexts],
        by rw [loadsItems, hitem, hitems]⟩

theorem loadsEntries_dumpsEntries : ∀ entries, isJsonEntries entries →
    ∀ loaded : List (PyKey × PyValue),
      (∀ key ∈ entries.map Prod.fst, key ∉ loaded.map Prod.fst) →
      ∃ texts, dumpsEntries floatRepr entries = some texts ∧
        loadsEntries loaded texts = loaded ++ entries
  | [], _, loaded, _ => ⟨[], rfl, by rw [loadsEntries, List.append_nil]⟩
  | (key, value) :: rest, h, loaded, hfresh => by
      simp only [isJsonEntries, Bool.and_eq_true, decide_eq_true_eq] at h
      obtain ⟨⟨⟨hkey, hnotMem⟩, hvalue⟩, hrest⟩ := h
      cases key with
      | text name =>
          obtain ⟨text, htext, hloads⟩ := loads_dumps value hvalue
          have hset : Dict.setEntries (.text name) value loaded =
              loaded ++ [(.text name, value)] :=
            Dict.setEntries_of_notMem (hfresh _ (by simp))
          have hnext : ∀ key ∈ rest.map Prod.fst,
              key ∉ (Dict.setEntries (.text name) value loaded).map Prod.fst := by
            intro key hmem
            rw [Dict.mem_keys_setEntries]
            rintro (rfl | hloaded)
            · exact hnotMem hmem
            · exact hfresh key (by simp [hmem]) hloaded
          obtain ⟨texts, htexts, hentries⟩ :=
            loadsEntries_dumpsEntries rest hrest _ hnext
          refine ⟨(name, text) :: texts, by simp [dumpsEntries, PyKey.dumps, htext, htexts], ?_⟩
          rw [loadsEntries, hloads, hentries, hset, List.append_assoc]
          rfl
      | _ => simp [isText] at hkey

end

theorem floatEq_self {value : PyFloat} (h : value ≠ .nan) : floatEq value value := by
  cases value with
  | nan => exact absurd rfl h
  | _ => simp [floatEq]

theorem PyKey.eq_of_isText {key other : PyKey} (h : isText key) (hother : isText other) :
    key.eq other = decide (key = other) := by
  cases key with
  | text name =>
      cases other with
      | text otherName => rfl
      | _ => simp [isText] at hother
  | _ => simp [isText] at h

theorem isText_of_isJsonEntries {entries : List (PyKey × PyValue)} (h : isJsonEntries entries)
    {key : PyKey} (hmem : key ∈ entries.map Prod.fst) : isText key := by
  induction entries with
  | nil => simp at hmem
  | cons entry rest ih =>
      simp only [isJsonEntries, Bool.and_eq_true] at h
      simp only [List.map_cons, List.mem_cons] at hmem
      rcases hmem with rfl | hrest
      · exact h.1.1.1
      · exact ih h.2 hrest

theorem find?_of_isJsonEntries {entries : List (PyKey × PyValue)} (h : isJsonEntries entries)
    {key : PyKey} {value : PyValue} (hmem : (key, value) ∈ entries) :
    entries.find? (fun other => key.eq other.1) = some (key, value) := by
  have htext := isText_of_isJsonEntries h (List.mem_map_of_mem hmem)
  induction entries with
  | nil => cases hmem
  | cons entry rest ih =>
      simp only [isJsonEntries, Bool.and_eq_true, decide_eq_true_eq] at h
      obtain ⟨⟨⟨hkey, hnotMem⟩, -⟩, hrest⟩ := h
      rcases List.mem_cons.mp hmem with rfl | hlater
      · exact List.find?_cons_of_pos (by simp [PyKey.eq_of_isText hkey hkey])
      · have hne : key ≠ entry.1 := by
          rintro rfl
          exact hnotMem (List.mem_map.mpr ⟨_, hlater, rfl⟩)
        rw [List.find?_cons_of_neg (by simp [PyKey.eq_of_isText htext hkey, hne])]
        exact ih hrest hlater

mutual

theorem eq_self : ∀ value, isJson value → eq value value
  | .none, _ => rfl
  | .bool _, _ => by simp [eq, PyValue.number, floatEq_self, ofBool]
  | .int _, _ => by simp [eq, PyValue.number, floatEq_self]
  | .float value, h => by
      simp only [isJson, decide_eq_true_eq] at h
      simp [eq, PyValue.number, floatEq_self h]
  | .text _, _ => by simp [eq]
  | .list items, h => by
      rw [eq]
      exact eqItems_self items h
  | .tuple _, h => by simp [isJson] at h
  | .dict entries, h => by
      simp only [eq, decide_true, Bool.true_and]
      exact eqEntries_self entries (fun key value hmem => find?_of_isJsonEntries h hmem) entries
        h (fun entry hmem => hmem)
  | .other _, h => by simp [isJson] at h

theorem eqItems_self : ∀ items, isJsonItems items → eqItems items items
  | [], _ => rfl
  | item :: items, h => by
      simp only [isJsonItems, Bool.and_eq_true] at h
      rw [eqItems, eq_self item h.1, eqItems_self items h.2]
      rfl

theorem eqEntries_self (others : List (PyKey × PyValue))
    (hfind : ∀ key value, (key, value) ∈ others →
      others.find? (fun other => PyKey.eq key other.1) = some (key, value)) :
    ∀ entries, isJsonEntries entries → (∀ entry ∈ entries, entry ∈ others) →
      eqEntries others entries
  | [], _, _ => rfl
  | (key, value) :: rest, h, hsub => by
      simp only [isJsonEntries, Bool.and_eq_true] at h
      rw [eqEntries, hfind key value (hsub _ (by simp)),
        eqEntries_self others hfind rest h.2 fun entry hmem => hsub entry (by simp [hmem])]
      simp [eq_self value h.1.2]

end

end Primitives

end Finiex.Lib.PythonJson
