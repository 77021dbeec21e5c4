import Mathlib.Data.List.Basic

namespace Finiex.Lib.Labels

/-- A label: a stem, an underscore and a decimal counter. -/
def counted (stem : String) (n : ℕ) : String := stem ++ "_" ++ n.repr

/-- A number in so many digits, with leading zeros. -/
def padded (width n : ℕ) : String :=
  String.ofList (List.replicate (width - n.repr.length) '0') ++ n.repr

theorem suffix_eq_of_not_mem {α : Type} {x : α} {as bs cs ds : List α} (hb : x ∉ bs)
    (hd : x ∉ ds) (h : as ++ x :: bs = cs ++ x :: ds) : bs = ds := by
  rcases List.append_eq_append_iff.mp h with ⟨es, rfl, hes⟩ | ⟨es, rfl, hes⟩
  · cases es with
    | nil => simpa using hes
    | cons e es =>
        rw [List.cons_append] at hes
        exact absurd ((List.cons.inj hes).2 ▸ by simp) hb
  · cases es with
    | nil => simpa using hes.symm
    | cons e es =>
        rw [List.cons_append] at hes
        exact absurd ((List.cons.inj hes).2 ▸ by simp) hd

theorem underscore_not_mem_repr (n : ℕ) : '_' ∉ n.repr.toList := by
  rw [Nat.toList_repr]
  exact Nat.underscore_not_in_toDigits

/-- The counter can be read off a label. -/
theorem counted_inj {stem stem' : String} {m n : ℕ} (h : counted stem m = counted stem' n) :
    m = n := by
  have hlists := congrArg String.toList h
  simp only [counted, String.toList_append, List.append_assoc] at hlists
  have hdigits : Nat.toDigits 10 m = Nat.toDigits 10 n := by
    rw [← Nat.toList_repr, ← Nat.toList_repr]
    exact suffix_eq_of_not_mem (underscore_not_mem_repr m) (underscore_not_mem_repr n)
      (by simpa using hlists)
  calc
    m = Nat.ofDigitChars 10 (Nat.toDigits 10 m) 0 := Nat.ofDigitChars_ten_toDigits.symm
    _ = Nat.ofDigitChars 10 (Nat.toDigits 10 n) 0 := by rw [hdigits]
    _ = n := Nat.ofDigitChars_ten_toDigits

end Finiex.Lib.Labels
