import Mathlib.Data.List.Basic
import Mathlib.Order.Basic
import Mathlib.Order.Lattice

/-!
# Timelines

A series of values, each with the instant it is available from. At an instant the last value is
current of which, and of all before which, the instant has come. Two series have the same current
values at all instants exactly when the same values come into force at the same instants.
-/

namespace Finiex.Lib

namespace Timeline

variable {τ α β : Type} [LinearOrder τ]

def current (series : List (τ × α)) (t : τ) : Option α :=
  (series.takeWhile fun entry => entry.1 ≤ t).getLast?.map Prod.snd

theorem current_map (f : α → β) (series : List (τ × α)) (t : τ) :
    current (series.map fun entry => (entry.1, f entry.2)) t = (current series t).map f := by
  rw [current, current, List.takeWhile_map, List.getLast?_map, Option.map_map, Option.map_map]
  rfl

theorem mem_of_current {series : List (τ × α)} {t : τ} {a : α} (h : current series t = some a) :
    a ∈ series.map Prod.snd := by
  obtain ⟨entry, hlast, rfl⟩ := Option.map_eq_some_iff.mp h
  exact List.mem_map_of_mem ((List.takeWhile_prefix _).subset (List.mem_of_mem_getLast? hlast))

theorem current_cons (entry : τ × α) (series : List (τ × α)) (t : τ) :
    current (entry :: series) t =
      if entry.1 ≤ t then (current series t).or (some entry.2) else none := by
  by_cases hle : entry.1 ≤ t
  · rw [if_pos hle, current, List.takeWhile_cons_of_pos (by simpa using hle), List.getLast?_cons,
      current]
    cases (series.takeWhile fun entry => entry.1 ≤ t).getLast? <;> rfl
  · rw [if_neg hle, current, List.takeWhile_cons_of_neg (by simpa using hle)]
    rfl

theorem current_before {entry : τ × α} {series : List (τ × α)}
    (h : ∀ later ∈ series, entry.1 < later.1) {t : τ} (ht : t ≤ entry.1) :
    current series t = none := by
  cases series with
  | nil => rfl
  | cons next series =>
      have hlt := h next List.mem_cons_self
      rw [current_cons, if_neg (not_le.mpr (ht.trans_lt hlt))]

section Splits

variable {series : List (τ × α)} {t : τ}

theorem current_eq_none_iff : current series t = none ↔ ∀ entry ∈ series.head?, t < entry.1 := by
  cases series with
  | nil => simp [current]
  | cons entry series =>
      rw [current_cons]
      by_cases hle : entry.1 ≤ t
      · rw [if_pos hle]
        cases current series t <;> simp [hle]
      · rw [if_neg hle]
        simpa using hle

theorem current_append {ahead : List (τ × α)} (h : ∀ entry ∈ ahead, entry.1 ≤ t) :
    current (ahead ++ series) t = (current series t).or (current ahead t) := by
  induction ahead with
  | nil => exact (Option.or_none ..).symm
  | cons entry ahead ih =>
      have hle := h entry List.mem_cons_self
      rw [List.cons_append, current_cons, current_cons, if_pos hle, if_pos hle,
        ih fun other hother => h other (List.mem_cons_of_mem _ hother), Option.or_assoc]

/-- The current value stands behind values that have come, and ahead of one that has not. -/
theorem current_eq_some_iff {a : α} : current series t = some a ↔
    ∃ ahead entry behind, series = ahead ++ entry :: behind ∧ entry.2 = a ∧
      (∀ other ∈ ahead, other.1 ≤ t) ∧ entry.1 ≤ t ∧ ∀ next ∈ behind.head?, t < next.1 := by
  induction series with
  | nil => simp [current]
  | cons first series ih =>
      rw [current_cons]
      constructor
      · intro hcurrent
        split at hcurrent
        · next hle =>
            cases hrest : current series t with
            | none =>
                rw [hrest] at hcurrent
                exact ⟨[], first, series, rfl, Option.some.inj hcurrent, by simp, hle,
                  current_eq_none_iff.mp hrest⟩
            | some b =>
                rw [hrest] at hcurrent
                obtain ⟨ahead, entry, behind, hsplit, hvalue, hahead, hcome, hnext⟩ :=
                  ih.mp (hrest.trans hcurrent)
                refine ⟨first :: ahead, entry, behind, congrArg (first :: ·) hsplit, hvalue, ?_,
                  hcome, hnext⟩
                simpa [hle] using hahead
        · cases hcurrent
      · rintro ⟨ahead, entry, behind, hsplit, hvalue, hahead, hcome, hnext⟩
        cases ahead with
        | nil =>
            obtain ⟨rfl, rfl⟩ := List.cons.inj hsplit
            rw [if_pos hcome, current_eq_none_iff.mpr hnext, hvalue]
            rfl
        | cons other ahead =>
            obtain ⟨rfl, hseries⟩ := List.cons.inj hsplit
            rw [if_pos (hahead first List.mem_cons_self), ih.mpr ⟨ahead, entry, behind, hseries,
              hvalue, fun other hother => hahead other (List.mem_cons_of_mem _ hother), hcome,
              hnext⟩]
            rfl

theorem exists_latest (entry : τ × α) (series : List (τ × α)) :
    ∃ latest ∈ entry :: series, ∀ other ∈ entry :: series, other.1 ≤ latest.1 := by
  induction series generalizing entry with
  | nil => exact ⟨entry, List.mem_cons_self, by simp⟩
  | cons next series ih =>
      obtain ⟨latest, hmem, hmost⟩ := ih next
      rcases le_total entry.1 latest.1 with hle | hle
      · refine ⟨latest, List.mem_cons_of_mem _ hmem, fun other hother => ?_⟩
        rcases List.mem_cons.mp hother with rfl | hother
        · exact hle
        · exact hmost other hother
      · refine ⟨entry, List.mem_cons_self, fun other hother => ?_⟩
        rcases List.mem_cons.mp hother with rfl | hother
        · exact le_rfl
        · exact (hmost other hother).trans hle

/-- A value is current before an instant exactly if the values ahead of it have come by then and
the next one comes later than these. -/
theorem exists_current_iff {stop : τ} {a : α} :
    (∃ t, t < stop ∧ current series t = some a) ↔
      ∃ ahead entry behind, series = ahead ++ entry :: behind ∧ entry.2 = a ∧
        (∀ other ∈ entry :: ahead, other.1 < stop) ∧
          ∀ next ∈ behind.head?, ∀ other ∈ entry :: ahead, other.1 < next.1 := by
  constructor
  · rintro ⟨t, hbefore, hcurrent⟩
    obtain ⟨ahead, entry, behind, hsplit, hvalue, hahead, hcome, hnext⟩ :=
      current_eq_some_iff.mp hcurrent
    have hreached : ∀ other ∈ entry :: ahead, other.1 ≤ t := by
      rintro other hother
      rcases List.mem_cons.mp hother with rfl | hother
      · exact hcome
      · exact hahead other hother
    exact ⟨ahead, entry, behind, hsplit, hvalue,
      fun other hother => (hreached other hother).trans_lt hbefore,
      fun next hmem other hother => (hreached other hother).trans_lt (hnext next hmem)⟩
  · rintro ⟨ahead, entry, behind, hsplit, hvalue, hbefore, hnext⟩
    -- the latest of those ahead opens the value
    obtain ⟨latest, hlatest, hmost⟩ := exists_latest entry ahead
    refine ⟨latest.1, hbefore latest hlatest, current_eq_some_iff.mpr ⟨ahead, entry, behind,
      hsplit, hvalue, fun other hother => hmost other (List.mem_cons_of_mem _ hother),
      hmost entry List.mem_cons_self, fun next hmem => hnext next hmem latest hlatest⟩⟩

end Splits

section Thinned

variable {keep : α → Bool} {entry : τ × α} {series : List (τ × α)} {t : τ}

/-- An entry left out of a series holds back a kept one at an instant: the kept one and all kept
ahead of it have come, and the one left out stands ahead of it and has not. -/
def HoldsBack (keep : α → Bool) (series : List (τ × α)) (t : τ) : Prop :=
  ∃ ahead entry behind, series = ahead ++ entry :: behind ∧ keep entry.2 = true ∧ entry.1 ≤ t ∧
    (∀ other ∈ ahead, keep other.2 = true → other.1 ≤ t) ∧ ∃ other ∈ ahead, t < other.1

omit [LinearOrder τ] in
theorem filter_kept (hkeep : keep entry.2 = true) :
    (entry :: series).filter (fun other => keep other.2) =
      entry :: series.filter fun other => keep other.2 :=
  @List.filter_cons_of_pos _ (fun other : τ × α => keep other.2) _ _ hkeep

omit [LinearOrder τ] in
theorem filter_left_out (hkeep : keep entry.2 = false) :
    (entry :: series).filter (fun other => keep other.2) =
      series.filter fun other => keep other.2 :=
  @List.filter_cons_of_neg _ (fun other : τ × α => keep other.2) _ _ (by simp [hkeep])

theorem holdsBack_cons (hle : entry.1 ≤ t) :
    HoldsBack keep (entry :: series) t ↔ HoldsBack keep series t := by
  constructor
  · rintro ⟨ahead, kept, behind, hsplit, hkept, hcome, hothers, other, hother, hlater⟩
    cases ahead with
    | nil => cases hother
    | cons first ahead =>
        obtain ⟨hfirst, hseries⟩ := List.cons.inj hsplit
        refine ⟨ahead, kept, behind, hseries, hkept, hcome,
          fun later hmem => hothers later (List.mem_cons_of_mem _ hmem), other, ?_, hlater⟩
        apply (List.mem_cons.mp hother).resolve_left
        rintro rfl
        exact absurd (hfirst ▸ hle) (not_le.mpr hlater)
  · rintro ⟨ahead, kept, behind, rfl, hkept, hcome, hothers, other, hother, hlater⟩
    refine ⟨entry :: ahead, kept, behind, rfl, hkept, hcome, fun later hmem hkeep => ?_, other,
      List.mem_cons_of_mem _ hother, hlater⟩
    rcases List.mem_cons.mp hmem with rfl | hmem
    · exact hle
    · exact hothers later hmem hkeep

theorem not_holdsBack_of_kept (hkeep : keep entry.2 = true) (hlater : t < entry.1) :
    ¬HoldsBack keep (entry :: series) t := by
  rintro ⟨ahead, kept, behind, hsplit, -, -, hothers, other, hother, -⟩
  cases ahead with
  | nil => cases hother
  | cons first ahead =>
      obtain ⟨rfl, -⟩ := List.cons.inj hsplit
      exact absurd (hothers entry List.mem_cons_self hkeep) (not_le.mpr hlater)

theorem not_holdsBack_of_forall (h : ∀ entry ∈ series, keep entry.2 = true ∨ entry.1 ≤ t) :
    ¬HoldsBack keep series t := by
  rintro ⟨ahead, kept, behind, rfl, -, -, hothers, other, hother, hlater⟩
  rcases h other (List.mem_append_left _ hother) with hkeep | hle
  · exact absurd (hothers other hother hkeep) (not_le.mpr hlater)
  · exact absurd hle (not_le.mpr hlater)

/-- In an ordered series nothing is held back. -/
theorem not_holdsBack_of_ascending (h : series.Pairwise fun a b => a.1 ≤ b.1) :
    ¬HoldsBack keep series t := by
  rintro ⟨ahead, kept, behind, rfl, -, hcome, -, other, hother, hlater⟩
  have hle := (List.pairwise_append.mp h).2.2 other hother kept List.mem_cons_self
  exact absurd (hle.trans hcome) (not_le.mpr hlater)

/-- One that has not come holds back what is kept behind it exactly if the first of that has. -/
theorem holdsBack_cons_of_later (hkeep : keep entry.2 = false) (hlater : t < entry.1) :
    HoldsBack keep (entry :: series) t ↔
      current (series.filter fun other => keep other.2) t ≠ none := by
  rw [Ne, current_eq_none_iff]
  constructor
  · rintro ⟨ahead, kept, behind, hsplit, hkept, hcome, hothers, -⟩ hfirst
    cases ahead with
    | nil =>
        obtain ⟨rfl, -⟩ := List.cons.inj hsplit
        rw [hkeep] at hkept
        cases hkept
    | cons first ahead =>
        obtain ⟨-, hseries⟩ := List.cons.inj hsplit
        rw [show series = ahead ++ kept :: behind from hseries, List.filter_append,
          filter_kept hkept] at hfirst
        cases hahead : ahead.filter fun other => keep other.2 with
        | nil =>
            rw [hahead] at hfirst
            exact absurd hcome (not_le.mpr (hfirst kept rfl))
        | cons other others =>
            rw [hahead] at hfirst
            obtain ⟨hmem, hother⟩ := List.mem_filter.mp (hahead ▸ List.mem_cons_self)
            exact absurd (hothers other (List.mem_cons_of_mem _ hmem) hother)
              (not_le.mpr (hfirst other rfl))
  · intro hfirst
    push Not at hfirst
    obtain ⟨kept, hhead, hcome⟩ := hfirst
    rw [List.head?_filter, Option.mem_def, List.find?_eq_some_iff_append] at hhead
    obtain ⟨hkept, ahead, behind, rfl, hothers⟩ := hhead
    refine ⟨entry :: ahead, kept, behind, rfl, hkept, hcome, fun other hmem hother => ?_, entry,
      List.mem_cons_self, hlater⟩
    rcases List.mem_cons.mp hmem with rfl | hmem
    · rw [hkeep] at hother
      cases hother
    · have hout := hothers other hmem
      rw [hother] at hout
      cases hout

/-- What is kept of a series has its current value if that is kept and nothing left out holds back
a kept one. -/
theorem current_filter (hkept : ∀ a ∈ current series t, keep a = true)
    (hback : ¬HoldsBack keep series t) :
    current (series.filter fun entry => keep entry.2) t = current series t := by
  induction series with
  | nil => rfl
  | cons entry series ih =>
      rw [current_cons] at hkept ⊢
      by_cases hle : entry.1 ≤ t
      · rw [if_pos hle] at hkept ⊢
        rw [holdsBack_cons hle] at hback
        have hsame : current (series.filter fun entry => keep entry.2) t = current series t := by
          refine ih (fun a ha => hkept a ?_) hback
          rw [show current series t = some a from ha]
          rfl
        cases hkeep : keep entry.2 with
        | true => rw [filter_kept hkeep, current_cons, if_pos hle, hsame]
        | false =>
            rw [filter_left_out hkeep, hsame]
            cases hcurrent : current series t with
            | some a => rfl
            | none =>
                rw [hcurrent] at hkept
                exact absurd (hkept entry.2 rfl) (by simp [hkeep])
      · rw [if_neg hle]
        cases hkeep : keep entry.2 with
        | true => rw [filter_kept hkeep, current_cons, if_neg hle]
        | false =>
            rw [filter_left_out hkeep]
            rw [holdsBack_cons_of_later hkeep (not_le.mp hle), not_ne_iff] at hback
            exact hback

/-- The current value of distinct ones is otherwise another. -/
theorem current_filter_eq_iff (hdistinct : (series.map Prod.snd).Nodup) :
    current (series.filter fun entry => keep entry.2) t = current series t ↔
      (∀ a ∈ current series t, keep a = true) ∧ ¬HoldsBack keep series t := by
  refine ⟨fun heq => ?_, fun h => current_filter h.1 h.2⟩
  induction series with
  | nil =>
      refine ⟨fun a ha => (nomatch ha), ?_⟩
      rintro ⟨ahead, kept, behind, hsplit, -⟩
      cases ahead <;> cases hsplit
  | cons entry series ih =>
      rw [List.map_cons, List.nodup_cons] at hdistinct
      have hfresh : entry.2 ∉ current series t := fun ha => hdistinct.1 (mem_of_current ha)
      have hfresh' : entry.2 ∉ current (series.filter fun entry => keep entry.2) t := fun ha =>
        hdistinct.1 ((List.filter_sublist.map Prod.snd).subset (mem_of_current ha))
      rw [current_cons] at heq ⊢
      by_cases hle : entry.1 ≤ t
      · rw [if_pos hle] at heq ⊢
        rw [holdsBack_cons hle]
        cases hkeep : keep entry.2 with
        | true =>
            rw [filter_kept hkeep, current_cons, if_pos hle] at heq
            have hsame : current (series.filter fun entry => keep entry.2) t =
                current series t := by
              cases hcurrent : current series t <;>
                cases hfiltered : current (series.filter fun entry => keep entry.2) t <;>
                  simp_all
            obtain ⟨hkept, hback⟩ := ih hdistinct.2 hsame
            refine ⟨fun a ha => ?_, hback⟩
            cases hcurrent : current series t with
            | none =>
                rw [hcurrent] at ha
                exact Option.some.inj ha ▸ hkeep
            | some b =>
                rw [hcurrent] at ha
                exact hkept a (hcurrent ▸ ha)
        | false =>
            rw [filter_left_out hkeep] at heq
            cases hcurrent : current series t with
            | none =>
                rw [hcurrent] at heq
                exact absurd heq hfresh'
            | some a =>
                rw [hcurrent, Option.some_or, ← hcurrent] at heq
                rw [Option.some_or, ← hcurrent]
                exact ih hdistinct.2 heq
      · have hlater := not_le.mp hle
        rw [if_neg hle] at heq ⊢
        refine ⟨fun a ha => (nomatch ha), ?_⟩
        cases hkeep : keep entry.2 with
        | true => exact not_holdsBack_of_kept hkeep hlater
        | false =>
            rw [filter_left_out hkeep] at heq
            rw [holdsBack_cons_of_later hkeep hlater, not_ne_iff]
            exact heq

end Thinned

section Gates

/-- The instants a series opens its values at, when none opens before a value ahead of it. -/
def gatesFrom (opened : τ) : List (τ × α) → List (τ × α)
  | [] => []
  | entry :: series => (max opened entry.1, entry.2) :: gatesFrom (max opened entry.1) series

def gates : List (τ × α) → List (τ × α)
  | [] => []
  | entry :: series => entry :: gatesFrom entry.1 series

theorem current_gatesFrom {opened t : τ} (hopened : opened ≤ t) (series : List (τ × α)) :
    current (gatesFrom opened series) t = current series t := by
  induction series generalizing opened with
  | nil => rfl
  | cons entry series ih =>
      rw [gatesFrom, current_cons, current_cons]
      by_cases hle : entry.1 ≤ t
      · rw [if_pos hle, if_pos (max_le hopened hle), ih (max_le hopened hle)]
      · rw [if_neg hle, if_neg fun h => hle ((le_max_right _ _).trans h)]

/-- Opening no value before those ahead of it leaves the current values. -/
theorem current_gates (series : List (τ × α)) (t : τ) :
    current (gates series) t = current series t := by
  cases series with
  | nil => rfl
  | cons entry series =>
      rw [gates, current_cons, current_cons]
      by_cases hle : entry.1 ≤ t
      · rw [if_pos hle, if_pos hle, current_gatesFrom hle]
      · rw [if_neg hle, if_neg hle]

theorem gatesFrom_ascending (opened : τ) (series : List (τ × α)) :
    (gatesFrom opened series).Pairwise (fun entry later => entry.1 ≤ later.1) ∧
      ∀ entry ∈ gatesFrom opened series, opened ≤ entry.1 := by
  induction series generalizing opened with
  | nil => exact ⟨List.Pairwise.nil, fun _ hmem => absurd hmem List.not_mem_nil⟩
  | cons entry series ih =>
      obtain ⟨hascending, hfrom⟩ := ih (max opened entry.1)
      refine ⟨List.pairwise_cons.mpr ⟨hfrom, hascending⟩, fun later hmem => ?_⟩
      rcases List.mem_cons.mp hmem with rfl | hlater
      · exact le_max_left _ _
      · exact (le_max_left _ _).trans (hfrom later hlater)

theorem gates_ascending (series : List (τ × α)) :
    (gates series).Pairwise fun entry later => entry.1 ≤ later.1 := by
  cases series with
  | nil => exact List.Pairwise.nil
  | cons entry series =>
      exact List.pairwise_cons.mpr ((gatesFrom_ascending entry.1 series).symm)

end Gates

section Shown

/-- The entries of an ascending series that are current at some instant: the last one of each
opening. -/
def shown : List (τ × α) → List (τ × α)
  | [] => []
  | [entry] => [entry]
  | entry :: next :: series =>
      if entry.1 < next.1 then entry :: shown (next :: series) else shown (next :: series)

theorem shown_sublist (series : List (τ × α)) : (shown series).Sublist series := by
  induction series with
  | nil => exact List.Sublist.refl _
  | cons entry series ih =>
      cases series with
      | nil => exact List.Sublist.refl _
      | cons next series =>
          rw [shown]
          split
          · exact ih.cons_cons entry
          · exact ih.cons entry

theorem shown_ascending {series : List (τ × α)}
    (h : series.Pairwise fun entry later => entry.1 ≤ later.1) :
    (shown series).Pairwise fun entry later => entry.1 < later.1 := by
  induction series with
  | nil => exact List.Pairwise.nil
  | cons entry series ih =>
      cases series with
      | nil => exact List.pairwise_singleton _ _
      | cons next series =>
          obtain ⟨hentry, hseries⟩ := List.pairwise_cons.mp h
          rw [shown]
          split
          · next hlt =>
              refine List.pairwise_cons.mpr ⟨fun later hlater => ?_, ih hseries⟩
              rcases List.mem_cons.mp ((shown_sublist _).subset hlater) with rfl | hmem
              · exact hlt
              · exact hlt.trans_le ((List.pairwise_cons.mp hseries).1 later hmem)
          · exact ih hseries

theorem current_shown {series : List (τ × α)}
    (h : series.Pairwise fun entry later => entry.1 ≤ later.1) (t : τ) :
    current (shown series) t = current series t := by
  induction series with
  | nil => rfl
  | cons entry series ih =>
      cases series with
      | nil => rfl
      | cons next series =>
          obtain ⟨hentry, hseries⟩ := List.pairwise_cons.mp h
          rw [shown]
          split
          · rw [current_cons, current_cons entry, ih hseries]
          · next hnot =>
              -- both open together, so the second hides the first
              have hsame : entry.1 = next.1 :=
                le_antisymm (hentry next List.mem_cons_self) (not_lt.mp hnot)
              rw [ih hseries, current_cons entry, current_cons next, hsame]
              by_cases hle : next.1 ≤ t
              · rw [if_pos hle, if_pos hle]
                cases current series t <;> rfl
              · rw [if_neg hle, if_neg hle]

/-- An entry of a strictly ascending series is current when it opens. -/
theorem current_of_mem {series : List (τ × α)}
    (h : series.Pairwise fun entry later => entry.1 < later.1) {entry : τ × α}
    (hmem : entry ∈ series) : current series entry.1 = some entry.2 := by
  induction series with
  | nil => cases hmem
  | cons first series ih =>
      obtain ⟨hfirst, hseries⟩ := List.pairwise_cons.mp h
      rcases List.mem_cons.mp hmem with rfl | hlater
      · rw [current_cons, if_pos le_rfl, current_before hfirst le_rfl]
        rfl
      · rw [current_cons, if_pos (hfirst entry hlater).le, ih hseries hlater]
        rfl

/-- The values of a series that are current at some instant. -/
def inForce (series : List (τ × α)) : List α := (shown (gates series)).map Prod.snd

theorem mem_inForce {series : List (τ × α)} {a : α} :
    a ∈ inForce series ↔ ∃ t, current series t = some a := by
  have hshown : ∀ t, current (shown (gates series)) t = current series t := fun t =>
    (current_shown (gates_ascending series) t).trans (current_gates series t)
  constructor
  · intro hmem
    obtain ⟨entry, hentry, rfl⟩ := List.mem_map.mp hmem
    refine ⟨entry.1, ?_⟩
    rw [← hshown]
    exact current_of_mem (shown_ascending (gates_ascending series)) hentry
  · rintro ⟨t, ht⟩
    rw [← hshown] at ht
    exact mem_of_current ht

end Shown

section Changes

def Changing : Option α → List (τ × α) → Prop
  | _, [] => True
  | held, entry :: series =>
      held ≠ some entry.2 ∧ (∀ later ∈ series, entry.1 < later.1) ∧ Changing (some entry.2) series

/-- A first change has no counterpart among no changes or later ones. -/
theorem Changing.opens {held : Option α} {entry : τ × α} {series series' : List (τ × α)}
    (h : Changing held (entry :: series))
    (hcurrent : (current (entry :: series) entry.1).or held = (current series' entry.1).or held) :
    current series' entry.1 ≠ none := by
  intro hnone
  rw [current_cons, if_pos le_rfl, current_before h.2.1 le_rfl, hnone] at hcurrent
  exact h.1 hcurrent.symm

/-- Changes are determined by the values they make current. -/
theorem eq_of_changing {held : Option α} {series series' : List (τ × α)}
    (h : Changing held series) (h' : Changing held series')
    (hcurrent : ∀ t, (current series t).or held = (current series' t).or held) :
    series = series' := by
  induction series generalizing held series' with
  | nil =>
      cases series' with
      | nil => rfl
      | cons entry' series' => exact absurd rfl (h'.opens (hcurrent entry'.1).symm)
  | cons entry series ih =>
      cases series' with
      | nil => exact absurd rfl (h.opens (hcurrent entry.1))
      | cons entry' series' =>
          have hsome := h.opens (hcurrent entry.1)
          have hsome' := h'.opens (hcurrent entry'.1).symm
          have hle' : entry'.1 ≤ entry.1 := by
            by_contra hnot
            exact hsome (by rw [current_cons, if_neg hnot])
          have hle : entry.1 ≤ entry'.1 := by
            by_contra hnot
            exact hsome' (by rw [current_cons, if_neg hnot])
          have hinstant : entry.1 = entry'.1 := le_antisymm hle hle'
          have hvalue : entry.2 = entry'.2 := by
            have heq := hcurrent entry.1
            rw [current_cons, if_pos le_rfl, current_before h.2.1 le_rfl, current_cons, if_pos hle',
              current_before h'.2.1 hle] at heq
            exact Option.some.inj heq
          have hentry : entry = entry' := Prod.ext hinstant hvalue
          subst hentry
          rw [ih h.2.2 h'.2.2 fun t => ?_]
          by_cases ht : entry.1 ≤ t
          · have heq := hcurrent t
            rw [current_cons, current_cons, if_pos ht, if_pos ht, Option.or_assoc,
              Option.or_assoc] at heq
            exact heq
          · rw [current_before h.2.1 (not_le.mp ht).le, current_before h'.2.1 (not_le.mp ht).le]

end Changes

section Schedules

variable [DecidableEq α]

def changesFrom (held : Option α) : List (τ × α) → List (τ × α)
  | [] => []
  | entry :: series =>
      if held = some entry.2 then changesFrom held series
      else entry :: changesFrom (some entry.2) series

/-- When which value comes into force. -/
def schedule (series : List (τ × α)) : List (τ × α) := changesFrom none (shown (gates series))

omit [LinearOrder τ] in
theorem changesFrom_sublist (held : Option α) (series : List (τ × α)) :
    (changesFrom held series).Sublist series := by
  induction series generalizing held with
  | nil => exact List.Sublist.refl _
  | cons entry series ih =>
      rw [changesFrom]
      split
      · exact (ih held).cons entry
      · exact (ih _).cons_cons entry

theorem current_changesFrom {series : List (τ × α)}
    (h : series.Pairwise fun entry later => entry.1 < later.1) (held : Option α) (t : τ) :
    (current (changesFrom held series) t).or held = (current series t).or held := by
  induction series generalizing held with
  | nil => rfl
  | cons entry series ih =>
      obtain ⟨hentry, hseries⟩ := List.pairwise_cons.mp h
      have hlater : ¬entry.1 ≤ t → ∀ held, current (changesFrom held series) t = none := by
        intro hnot held
        cases hchanges : changesFrom held series with
        | nil => rfl
        | cons next changes =>
            have hmem : next ∈ series :=
              (changesFrom_sublist held series).subset (hchanges ▸ List.mem_cons_self)
            rw [current_cons, if_neg fun hle => hnot ((hentry next hmem).le.trans hle)]
      rw [changesFrom, current_cons]
      split
      · next hsame =>
          rw [ih hseries, hsame]
          by_cases hle : entry.1 ≤ t
          · rw [if_pos hle, Option.or_assoc]
            rfl
          · have hnone := hlater hle held
            have hheld := ih hseries held
            rw [hnone] at hheld
            rw [if_neg hle, ← hsame, ← hheld]
      · rw [current_cons]
        by_cases hle : entry.1 ≤ t
        · rw [if_pos hle, if_pos hle, ih hseries]
        · rw [if_neg hle, if_neg hle]

theorem changing_changesFrom {series : List (τ × α)}
    (h : series.Pairwise fun entry later => entry.1 < later.1) (held : Option α) :
    Changing held (changesFrom held series) := by
  induction series generalizing held with
  | nil => trivial
  | cons entry series ih =>
      obtain ⟨hentry, hseries⟩ := List.pairwise_cons.mp h
      rw [changesFrom]
      split
      · exact ih hseries held
      · next hnot =>
          refine ⟨hnot, fun later hlater => hentry later ?_, ih hseries _⟩
          exact (changesFrom_sublist _ _).subset hlater

/-- Two series have the same current values at all instants exactly if they have one schedule. -/
theorem current_eq_iff (series series' : List (τ × α)) :
    (∀ t, current series t = current series' t) ↔ schedule series = schedule series' := by
  have hschedule : ∀ (series : List (τ × α)) t, current (schedule series) t = current series t := by
    intro series t
    have hchanges := current_changesFrom (shown_ascending (gates_ascending series)) none t
    rw [Option.or_none, Option.or_none, current_shown (gates_ascending series), current_gates]
      at hchanges
    exact hchanges
  constructor
  · intro h
    refine eq_of_changing (changing_changesFrom (shown_ascending (gates_ascending series)) none)
      (changing_changesFrom (shown_ascending (gates_ascending series')) none) fun t => ?_
    rw [Option.or_none, Option.or_none]
    exact ((hschedule series t).trans (h t)).trans (hschedule series' t).symm
  · intro h t
    rw [← hschedule series, h, hschedule]

end Schedules

end Timeline

end Finiex.Lib
