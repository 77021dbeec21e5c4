import Mathlib.Order.Lattice
import Mathlib.Data.List.Basic
import Mathlib.Data.List.Chain
import Mathlib.Tactic.Tauto

namespace Finiex.Lib.Spans

variable {α : Type} [LinearOrder α]

section Neighbours

theorem apart_of_neighbours {xs : List α} (hsorted : xs.Pairwise (· ≤ ·)) {a b : α}
    (h : (a, b) ∈ xs.zip xs.tail) {x : α} (hx : x ∈ xs) : x ≤ a ∨ b ≤ x := by
  induction xs with
  | nil => exact absurd hx List.not_mem_nil
  | cons first xs ih =>
      obtain ⟨hfirst, hrest⟩ := List.pairwise_cons.mp hsorted
      cases xs with
      | nil => exact absurd h List.not_mem_nil
      | cons second xs =>
          rw [List.tail_cons, List.zip_cons_cons] at h
          rcases List.mem_cons.mp h with heq | hlater
          · cases heq
            rcases List.mem_cons.mp hx with rfl | hmem
            · exact .inl (le_refl _)
            · rcases List.mem_cons.mp hmem with rfl | hmem'
              · exact .inr (le_refl _)
              · exact .inr ((List.pairwise_cons.mp hrest).1 x hmem')
          · rcases List.mem_cons.mp hx with rfl | hmem
            · refine .inl (hfirst a ?_)
              exact (List.of_mem_zip hlater).1
            · exact ih hrest hlater hmem

theorem rel_of_neighbours {β : Type} {R : β → β → Prop} {xs : List β} (h : xs.Pairwise R) {a b : β}
    (hboth : (a, b) ∈ xs.zip xs.tail) : R a b := by
  induction xs with
  | nil => exact absurd hboth List.not_mem_nil
  | cons first xs ih =>
      obtain ⟨hfirst, hrest⟩ := List.pairwise_cons.mp h
      cases xs with
      | nil => exact absurd hboth List.not_mem_nil
      | cons second xs =>
          rw [List.tail_cons, List.zip_cons_cons] at hboth
          rcases List.mem_cons.mp hboth with heq | hlater
          · cases heq
            exact hfirst _ List.mem_cons_self
          · exact ih hrest hlater

end Neighbours

section Separate

/-- Spans that follow one another between two ends. -/
def Separate (stop : α) : α → List (α × α) → Prop
  | start, [] => start ≤ stop
  | start, span :: spans => start ≤ span.1 ∧ span.1 < span.2 ∧ Separate stop span.2 spans

variable {start mid stop : α} {spans : List (α × α)}

theorem Separate.le (h : Separate stop start spans) : start ≤ stop := by
  induction spans generalizing start with
  | nil => exact h
  | cons span spans ih =>
      obtain ⟨hstart, hspan, hrest⟩ := h
      exact hstart.trans (hspan.le.trans (ih hrest))

theorem Separate.of_le (h : Separate stop mid spans) (hle : start ≤ mid) :
    Separate stop start spans := by
  cases spans with
  | nil => exact hle.trans h
  | cons span spans => exact ⟨hle.trans h.1, h.2⟩

theorem Separate.inside (h : Separate stop start spans) {span : α × α} (hspan : span ∈ spans) :
    start ≤ span.1 ∧ span.1 < span.2 ∧ span.2 ≤ stop := by
  induction spans generalizing start with
  | nil => cases hspan
  | cons first spans ih =>
      obtain ⟨hstart, hfirst, hrest⟩ := h
      rcases List.mem_cons.mp hspan with rfl | hlater
      · exact ⟨hstart, hfirst, hrest.le⟩
      · obtain ⟨hlow, hboth⟩ := ih hrest hlater
        exact ⟨hstart.trans (hfirst.le.trans hlow), hboth⟩

theorem Separate.pairwise (h : Separate stop start spans) :
    spans.Pairwise fun span later => span.2 ≤ later.1 := by
  induction spans generalizing start with
  | nil => exact List.Pairwise.nil
  | cons span spans ih =>
      obtain ⟨-, -, hrest⟩ := h
      exact List.pairwise_cons.mpr ⟨fun later hlater => (hrest.inside hlater).1, ih hrest⟩

theorem Separate.sublist {kept : List (α × α)} (hkept : kept.Sublist spans)
    (h : Separate stop start spans) : Separate stop start kept := by
  induction hkept generalizing start with
  | slnil => exact h
  | cons span _ ih =>
      obtain ⟨hstart, hspan, hrest⟩ := h
      exact (ih hrest).of_le (hstart.trans hspan.le)
  | cons_cons span _ ih =>
      obtain ⟨hstart, hspan, hrest⟩ := h
      exact ⟨hstart, hspan, ih hrest⟩

theorem Separate.append {later : List (α × α)} (h : Separate mid start spans)
    (hlater : Separate stop mid later) : Separate stop start (spans ++ later) := by
  induction spans generalizing start with
  | nil => exact hlater.of_le h
  | cons span spans ih =>
      obtain ⟨hstart, hspan, hrest⟩ := h
      exact ⟨hstart, hspan, ih hrest⟩

/-- Spans put between the neighbours of an ascending list. -/
theorem separate_flatMap_neighbours {first last : α} {xs : List α} {p : α × α → Bool}
    {fill : α × α → List (α × α)} (hsorted : (first :: xs).Pairwise (· ≤ ·))
    (hlast : (first :: xs).getLast? = some last)
    (hfill : ∀ a b, (a, b) ∈ (first :: xs).zip xs → p (a, b) = true →
      Separate b a (fill (a, b))) :
    Separate last first ((((first :: xs).zip xs).filter p).flatMap fill) := by
  induction xs generalizing first with
  | nil =>
      cases hlast
      exact le_refl _
  | cons second xs ih =>
      obtain ⟨hfirst, hrest⟩ := List.pairwise_cons.mp hsorted
      have hlater := ih hrest (by rwa [List.getLast?_cons_cons] at hlast) fun a b hmem =>
        hfill a b (List.mem_cons_of_mem _ hmem)
      rw [List.zip_cons_cons, List.filter_cons]
      split
      · next hp =>
          rw [List.flatMap_cons]
          exact (hfill first second List.mem_cons_self hp).append hlater
      · exact hlater.of_le (hfirst second List.mem_cons_self)

end Separate

section Tiles

/-- Spans that leave nothing out between two ends. -/
def Tiles (stop : α) : α → List (α × α) → Prop
  | start, [] => start = stop
  | start, span :: spans => span.1 = start ∧ span.1 < span.2 ∧ Tiles stop span.2 spans

variable {start stop : α} {spans : List (α × α)}

theorem Tiles.separate (h : Tiles stop start spans) : Separate stop start spans := by
  induction spans generalizing start with
  | nil => exact le_of_eq h
  | cons span spans ih =>
      obtain ⟨hstart, hspan, hrest⟩ := h
      exact ⟨hstart.ge, hspan, ih hrest⟩

theorem Tiles.isChain (h : Tiles stop start spans) :
    spans.IsChain fun span next => span.2 = next.1 := by
  induction spans generalizing start with
  | nil => exact List.IsChain.nil
  | cons span spans ih =>
      obtain ⟨-, -, hrest⟩ := h
      refine List.isChain_cons.mpr ⟨fun next hnext => ?_, ih hrest⟩
      cases spans with
      | nil => cases hnext
      | cons second spans =>
          cases hnext
          exact hrest.1.symm

theorem Tiles.ends (h : Tiles stop start spans) (hlt : start < stop) :
    spans.head?.map Prod.fst = some start ∧ spans.getLast?.map Prod.snd = some stop := by
  induction spans generalizing start with
  | nil => exact absurd h hlt.ne
  | cons span spans ih =>
      obtain ⟨hstart, -, hrest⟩ := h
      refine ⟨by rw [List.head?_cons, Option.map_some, hstart], ?_⟩
      cases spans with
      | nil =>
          rw [List.getLast?_singleton, Option.map_some]
          exact congrArg some hrest
      | cons second spans =>
          rw [List.getLast?_cons_cons]
          exact (ih hrest (hrest.2.1.trans_le' hrest.1.ge |>.trans_le hrest.2.2.separate.le)).2

/-- The neighbours of a strictly ascending list leave nothing out. -/
theorem tiles_neighbours {first last : α} {xs : List α} (h : (first :: xs).Pairwise (· < ·))
    (hlast : (first :: xs).getLast? = some last) : Tiles last first ((first :: xs).zip xs) := by
  induction xs generalizing first with
  | nil =>
      cases hlast
      rfl
  | cons second xs ih =>
      obtain ⟨hfirst, hrest⟩ := List.pairwise_cons.mp h
      rw [List.getLast?_cons_cons] at hlast
      exact ⟨rfl, hfirst second List.mem_cons_self, ih hrest hlast⟩

variable {β : Type} {f : β → α × α} {xs : List β} {x : β}

theorem Tiles.meet (h : Tiles stop start (xs.map f)) {next : β}
    (hboth : (x, next) ∈ xs.zip xs.tail) : (f x).2 = (f next).1 := by
  induction xs generalizing start with
  | nil => cases hboth
  | cons first xs ih =>
      obtain ⟨-, -, hrest⟩ := h
      cases xs with
      | nil => cases hboth
      | cons second xs =>
          rw [List.tail_cons, List.zip_cons_cons] at hboth
          rcases List.mem_cons.mp hboth with heq | hlater
          · cases heq
            exact hrest.1.symm
          · exact ih hrest hlater

/-- Behind a span comes another one, up to the end. -/
theorem Tiles.next (h : Tiles stop start (xs.map f)) (hx : x ∈ xs) :
    (f x).2 = stop ∨ ∃ next, (x, next) ∈ xs.zip xs.tail := by
  induction xs generalizing start with
  | nil => cases hx
  | cons first xs ih =>
      obtain ⟨-, -, hrest⟩ := h
      cases xs with
      | nil =>
          cases List.mem_singleton.mp hx
          exact .inl hrest
      | cons second xs =>
          rw [List.tail_cons, List.zip_cons_cons]
          rcases List.mem_cons.mp hx with rfl | hlater
          · exact .inr ⟨second, List.mem_cons_self⟩
          · rcases ih hrest hlater with hstop | ⟨next, hnext⟩
            · exact .inl hstop
            · exact .inr ⟨next, List.mem_cons_of_mem _ hnext⟩

end Tiles

section Complement

/-- The spans that gaps leave between two ends. -/
def complement (stop : α) : α → List (α × α) → List (α × α)
  | start, [] => if start < stop then [(start, stop)] else []
  | start, gap :: gaps =>
      if gap.1 ≤ start then complement stop gap.2 gaps
      else (start, gap.1) :: complement stop gap.2 gaps

variable {start stop : α} {gaps : List (α × α)}

theorem complement_inside (h : Separate stop start gaps) {span : α × α}
    (hspan : span ∈ complement stop start gaps) :
    start ≤ span.1 ∧ span.1 < span.2 ∧ span.2 ≤ stop := by
  induction gaps generalizing start with
  | nil =>
      rw [complement] at hspan
      split at hspan
      · next hlt =>
          cases List.mem_singleton.mp hspan
          exact ⟨le_refl _, hlt, le_refl _⟩
      · cases hspan
  | cons gap gaps ih =>
      obtain ⟨hstart, hgap, hrest⟩ := h
      have hlater : span ∈ complement stop gap.2 gaps →
          start ≤ span.1 ∧ span.1 < span.2 ∧ span.2 ≤ stop := by
        intro hmem
        obtain ⟨hlow, hboth⟩ := ih hrest hmem
        exact ⟨hstart.trans (hgap.le.trans hlow), hboth⟩
      rw [complement] at hspan
      split at hspan
      · exact hlater hspan
      · next hfree =>
          rcases List.mem_cons.mp hspan with rfl | hmem
          · exact ⟨le_refl _, not_le.mp hfree, hgap.le.trans hrest.le⟩
          · exact hlater hmem

theorem complement_pairwise (h : Separate stop start gaps) :
    (complement stop start gaps).Pairwise fun span later => span.2 < later.1 := by
  induction gaps generalizing start with
  | nil =>
      rw [complement]
      split
      · exact List.pairwise_singleton _ _
      · exact List.Pairwise.nil
  | cons gap gaps ih =>
      obtain ⟨-, hgap, hrest⟩ := h
      rw [complement]
      split
      · exact ih hrest
      · refine List.pairwise_cons.mpr ⟨fun later hlater => ?_, ih hrest⟩
        exact hgap.trans_le (complement_inside hrest hlater).1

theorem complement_apart (h : Separate stop start gaps) {span gap : α × α}
    (hspan : span ∈ complement stop start gaps) (hgap : gap ∈ gaps) :
    gap.2 ≤ span.1 ∨ span.2 ≤ gap.1 := by
  induction gaps generalizing start with
  | nil => cases hgap
  | cons first gaps ih =>
      obtain ⟨-, hfirst, hrest⟩ := h
      have hlater : span ∈ complement stop first.2 gaps → gap.2 ≤ span.1 ∨ span.2 ≤ gap.1 := by
        intro hmem
        rcases List.mem_cons.mp hgap with rfl | hgap'
        · exact .inl (complement_inside hrest hmem).1
        · exact ih hrest hmem hgap'
      rw [complement] at hspan
      split at hspan
      · exact hlater hspan
      · rcases List.mem_cons.mp hspan with rfl | hmem
        · rcases List.mem_cons.mp hgap with rfl | hgap'
          · exact .inr (le_refl _)
          · exact .inr (hfirst.le.trans (hrest.inside hgap').1)
        · exact hlater hmem

/-- A span starts at the first end or behind a gap, unless a gap starts there. -/
theorem starts_complement_iff (h : Separate stop start gaps) {x : α} :
    (∃ span ∈ complement stop start gaps, span.1 = x) ↔
      (x = start ∨ ∃ gap ∈ gaps, gap.2 = x) ∧ x < stop ∧ ∀ gap ∈ gaps, gap.1 ≠ x := by
  induction gaps generalizing start with
  | nil =>
      rw [complement]
      split
      · next hlt =>
          constructor
          · rintro ⟨span, hspan, rfl⟩
            cases List.mem_singleton.mp hspan
            exact ⟨.inl rfl, hlt, fun gap hgap => (nomatch hgap)⟩
          · rintro ⟨rfl | ⟨gap, hgap, -⟩, -, -⟩
            · exact ⟨_, List.mem_cons_self, rfl⟩
            · cases hgap
      · next hnot =>
          constructor
          · rintro ⟨span, hspan, -⟩
            cases hspan
          · rintro ⟨rfl | ⟨gap, hgap, -⟩, hlt, -⟩
            · exact absurd hlt hnot
            · cases hgap
  | cons gap gaps ih =>
      obtain ⟨hstart, hgap, hrest⟩ := h
      have hlater := ih hrest
      have hends : (x = gap.2 ∨ ∃ gap' ∈ gaps, gap'.2 = x) → gap.1 < x := by
        rintro (rfl | ⟨gap', hmem, rfl⟩)
        · exact hgap
        · obtain ⟨hlow, hhigh, -⟩ := hrest.inside hmem
          exact hgap.trans_le (hlow.trans hhigh.le)
      rw [complement]
      split
      · next hle =>
          rw [hlater]
          simp only [List.mem_cons, exists_eq_or_imp, forall_eq_or_imp]
          constructor
          · rintro ⟨hend, hlt, hfree⟩
            exact ⟨.inr (hend.imp_left Eq.symm), hlt, (hends hend).ne, hfree⟩
          · rintro ⟨rfl | hend, hlt, hne, hfree⟩
            · exact absurd (le_antisymm hle hstart) hne
            · exact ⟨hend.imp_left Eq.symm, hlt, hfree⟩
      · next hfree =>
          simp only [List.mem_cons, exists_eq_or_imp, forall_eq_or_imp, hlater]
          constructor
          · rintro (rfl | ⟨hend, hlt, hnone⟩)
            · refine ⟨.inl rfl, (not_le.mp hfree).trans_le (hgap.le.trans hrest.le),
                (not_le.mp hfree).ne', fun gap' hmem => ?_⟩
              exact ((not_le.mp hfree).trans (hgap.trans_le (hrest.inside hmem).1)).ne'
            · exact ⟨.inr (hend.imp_left Eq.symm), hlt, (hends hend).ne, hnone⟩
          · rintro ⟨rfl | hend, hlt, hne, hnone⟩
            · exact .inl rfl
            · exact .inr ⟨hend.imp_left Eq.symm, hlt, hnone⟩

/-- A point is in a span, its ends counted, unless a gap is around it or gaps and ends leave it
alone. -/
theorem covered_complement_iff (h : Separate stop start gaps) {x : α} :
    (∃ span ∈ complement stop start gaps, span.1 ≤ x ∧ x ≤ span.2) ↔
      start ≤ x ∧ x ≤ stop ∧ (∀ gap ∈ gaps, x ≤ gap.1 ∨ gap.2 ≤ x) ∧
        ¬((x = start ∨ ∃ gap ∈ gaps, gap.2 = x) ∧ (x = stop ∨ ∃ gap ∈ gaps, gap.1 = x)) := by
  induction gaps generalizing start with
  | nil =>
      have hle : start ≤ stop := h
      rw [complement]
      simp only [List.not_mem_nil, false_and, exists_false, or_false, false_imp_iff,
        implies_true, true_and]
      split
      · next hlt =>
          simp only [List.mem_singleton, exists_eq_left]
          refine ⟨fun hx => ⟨hx.1, hx.2, ?_⟩, fun hx => ⟨hx.1, hx.2.1⟩⟩
          rintro ⟨rfl, rfl⟩
          exact lt_irrefl _ hlt
      · next hnot =>
          simp only [List.not_mem_nil, false_and, exists_false, false_iff]
          rintro ⟨hlow, hhigh, halone⟩
          have hsame := le_antisymm hle (not_lt.mp hnot)
          subst hsame
          exact halone ⟨le_antisymm hhigh hlow, le_antisymm hhigh hlow⟩
  | cons gap gaps ih =>
      obtain ⟨hstart, hgap, hrest⟩ := h
      have hlater := ih hrest
      have hbehind : ∀ gap' ∈ gaps, gap.2 ≤ gap'.1 ∧ gap.2 < gap'.2 := fun gap' hmem =>
        ⟨(hrest.inside hmem).1, (hrest.inside hmem).1.trans_lt (hrest.inside hmem).2.1⟩
      have hsplit : (∃ span ∈ complement stop start (gap :: gaps), span.1 ≤ x ∧ x ≤ span.2) ↔
          (start < gap.1 ∧ start ≤ x ∧ x ≤ gap.1) ∨
            ∃ span ∈ complement stop gap.2 gaps, span.1 ≤ x ∧ x ≤ span.2 := by
        rw [complement]
        split
        · next hle => simp [not_lt.mpr hle]
        · next hfree => simp [not_le.mp hfree]
      rw [hsplit, hlater]
      simp only [List.mem_cons, exists_eq_or_imp, forall_eq_or_imp]
      rcases lt_or_ge x gap.2 with hbefore | hafter
      · -- only the span before the gap can hold the point
        have hends : ¬∃ gap' ∈ gaps, gap'.2 = x := by
          rintro ⟨gap', hmem, rfl⟩
          exact lt_asymm hbefore (hbehind gap' hmem).2
        have hstarts : ¬∃ gap' ∈ gaps, gap'.1 = x := by
          rintro ⟨gap', hmem, rfl⟩
          exact absurd hbefore (not_lt.mpr (hbehind gap' hmem).1)
        have hfree : ∀ gap' ∈ gaps, x ≤ gap'.1 ∨ gap'.2 ≤ x := fun gap' hmem =>
          .inl (hbefore.le.trans (hbehind gap' hmem).1)
        have hstop : x < stop := hbefore.trans_le hrest.le
        constructor
        · rintro (⟨hlt, hlow, hhigh⟩ | ⟨hlow, -⟩)
          · refine ⟨hlow, hstop.le, ⟨.inl hhigh, hfree⟩, ?_⟩
            rintro ⟨rfl | heq | hend, rfl | hgap' | hstart'⟩
            · exact lt_irrefl _ hstop
            · exact hlt.ne' hgap'
            · exact hstarts hstart'
            · exact lt_irrefl _ hstop
            · exact hbefore.ne' heq
            · exact hstarts hstart'
            · exact lt_irrefl _ hstop
            · exact hends hend
            · exact hstarts hstart'
          · exact absurd hbefore (not_lt.mpr hlow)
        · rintro ⟨hlow, -, ⟨hhigh | hhigh, -⟩, halone⟩
          · refine .inl ⟨lt_of_le_of_ne hstart ?_, hlow, hhigh⟩
            rintro rfl
            exact halone ⟨.inl (le_antisymm hhigh hlow), .inr (.inl (le_antisymm hlow hhigh))⟩
          · exact absurd hbefore (not_lt.mpr hhigh)
      · -- the gap is behind
        have hstart' : x ≠ start := (hstart.trans_lt (hgap.trans_le hafter)).ne'
        have hgap' : gap.1 ≠ x := (hgap.trans_le hafter).ne
        have hfirst : ¬(start < gap.1 ∧ start ≤ x ∧ x ≤ gap.1) := fun hx =>
          absurd (hgap.trans_le hafter) (not_lt.mpr hx.2.2)
        have hstart'' : start ≤ x := hstart.trans (hgap.le.trans hafter)
        rw [or_iff_right hfirst]
        simp only [false_or, hafter, true_and, hstart', hgap', or_true, hstart'', eq_comm (a := x)]

end Complement

end Finiex.Lib.Spans
