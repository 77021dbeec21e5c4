import Finiex.Lib.Dict

/-!
# Overlays of labelled trees

Trees whose nodes have a kind and labelled children, and the overlay of one such tree on another:
two nodes of one kind that joins are merged child by child, and everything else is replaced.
-/

namespace Finiex.Lib

inductive Tree (κ ι α : Type)
  | leaf (value : α)
  | node (kind : κ) (children : List (ι × Tree κ ι α))

namespace Tree

variable {κ ι α : Type}

section Induction

variable {motive : Tree κ ι α → Prop}

mutual

theorem induct (leaf : ∀ value, motive (.leaf value))
    (node : ∀ kind children, (∀ c ∈ children, motive c.2) → motive (.node kind children)) :
    ∀ t, motive t
  | .leaf value => leaf value
  | .node kind children => node kind children (inductChildren leaf node children)

theorem inductChildren (leaf : ∀ value, motive (.leaf value))
    (node : ∀ kind children, (∀ c ∈ children, motive c.2) → motive (.node kind children)) :
    ∀ children : List (ι × Tree κ ι α), ∀ c ∈ children, motive c.2
  | [] => by simp
  | (label, t) :: children => by
      intro c hc
      rcases List.mem_cons.mp hc with rfl | hmem
      · exact induct leaf node t
      · exact inductChildren leaf node children c hmem

end

end Induction

section Everywhere

inductive Everywhere (P : κ → List (ι × Tree κ ι α) → Prop) : Tree κ ι α → Prop
  | leaf (value : α) : Everywhere P (.leaf value)
  | node {kind : κ} {children : List (ι × Tree κ ι α)} (here : P kind children)
      (below : ∀ c ∈ children, Everywhere P c.2) : Everywhere P (.node kind children)

variable {P Q : κ → List (ι × Tree κ ι α) → Prop} {kind : κ} {children : List (ι × Tree κ ι α)}

@[simp] theorem everywhere_leaf (value : α) : Everywhere P (.leaf value) := .leaf value

theorem everywhere_node_iff :
    Everywhere P (.node kind children) ↔
      P kind children ∧ ∀ c ∈ children, Everywhere P c.2 := by
  constructor
  · intro h
    cases h with
    | node here below => exact ⟨here, below⟩
  · exact fun h => .node h.1 h.2

theorem Everywhere.mono (hPQ : ∀ kind children, P kind children → Q kind children)
    {t : Tree κ ι α} (h : Everywhere P t) : Everywhere Q t := by
  induction h with
  | leaf value => exact .leaf value
  | node here _ ih => exact .node (hPQ _ _ here) ih

/-- No two children of a node have one label. -/
def Distinct (t : Tree κ ι α) : Prop :=
  Everywhere (fun _ children => (children.map Prod.fst).Nodup) t

end Everywhere

section Children

variable [DecidableEq ι]

def child (label : ι) : List (ι × Tree κ ι α) → Option (Tree κ ι α)
  | [] => none
  | c :: cs => if c.1 = label then some c.2 else child label cs

variable {label : ι} {t : Tree κ ι α} {cs ds : List (ι × Tree κ ι α)}

theorem mem_of_child (h : child label cs = some t) : (label, t) ∈ cs := by
  induction cs with
  | nil => simp [child] at h
  | cons c cs ih =>
      unfold child at h
      split at h
      · next hlabel =>
          subst hlabel
          cases h
          simp
      · exact List.mem_cons_of_mem _ (ih h)

theorem child_eq_none_iff : child label cs = none ↔ label ∉ cs.map Prod.fst := by
  induction cs with
  | nil => simp [child]
  | cons c cs ih =>
      unfold child
      split
      · next hlabel => simp [hlabel]
      · next hlabel => simpa [ih] using fun _ => Ne.symm hlabel

theorem child_of_mem (hnodup : (cs.map Prod.fst).Nodup) (h : (label, t) ∈ cs) :
    child label cs = some t := by
  induction cs with
  | nil => simp at h
  | cons c cs ih =>
      simp only [List.map_cons, List.nodup_cons] at hnodup
      unfold child
      rcases List.mem_cons.mp h with rfl | hmem
      · simp
      · have hlabel : c.1 ≠ label := by
          rintro rfl
          exact hnodup.1 (List.mem_map.mpr ⟨_, hmem, rfl⟩)
        rw [if_neg hlabel]
        exact ih hnodup.2 hmem

@[simp] theorem child_setEntries_self : child label (Dict.setEntries label t cs) = some t := by
  induction cs with
  | nil => simp [Dict.setEntries, child]
  | cons c cs ih =>
      unfold Dict.setEntries
      split
      · simp [child]
      · next hlabel => simp [child, hlabel, ih]

theorem child_setEntries_ne {other : ι} (hne : other ≠ label) :
    child other (Dict.setEntries label t cs) = child other cs := by
  induction cs with
  | nil => simp [Dict.setEntries, child, hne.symm]
  | cons c cs ih =>
      unfold Dict.setEntries
      split
      · next hlabel =>
          subst hlabel
          simp [child, hne.symm]
      · simp [child, ih]

theorem labels_setEntries :
    (Dict.setEntries label t cs).map Prod.fst =
      if label ∈ cs.map Prod.fst then cs.map Prod.fst else cs.map Prod.fst ++ [label] := by
  induction cs with
  | nil => simp [Dict.setEntries]
  | cons c cs ih =>
      unfold Dict.setEntries
      split
      · next hlabel => simp [hlabel]
      · next hlabel =>
          have hne : label ≠ c.1 := fun h => hlabel h.symm
          simp only [List.map_cons, ih, List.mem_cons, hne, false_or]
          split <;> rfl

theorem children_ext (hlabels : cs.map Prod.fst = ds.map Prod.fst)
    (hnodup : (cs.map Prod.fst).Nodup) (hchild : ∀ label, child label cs = child label ds) :
    cs = ds := by
  induction cs generalizing ds with
  | nil => simpa using hlabels.symm
  | cons c cs ih =>
      cases ds with
      | nil => simp at hlabels
      | cons d ds =>
          simp only [List.map_cons, List.cons.injEq, List.nodup_cons] at hlabels hnodup
          have hhead := hchild c.1
          simp only [child, ← hlabels.1, if_true, Option.some.injEq] at hhead
          have hcd : c = d := Prod.ext hlabels.1 hhead
          have hrest : ∀ label, child label cs = child label ds := by
            intro label
            by_cases hlabel : c.1 = label
            · subst hlabel
              rw [child_eq_none_iff.mpr hnodup.1,
                child_eq_none_iff.mpr (hlabels.2 ▸ hnodup.1)]
            · have := hchild label
              simpa [child, hlabel, ← hlabels.1] using this
          rw [hcd, ih hlabels.2 hnodup.2 hrest]

end Children

section Overlay

variable [DecidableEq κ] [DecidableEq ι] (joins : κ → Bool)

mutual

def overlay (base : Tree κ ι α) : Tree κ ι α → Tree κ ι α
  | .leaf value => .leaf value
  | .node kind children =>
      match base with
      | .leaf _ => .node kind children
      | .node baseKind baseChildren =>
          if baseKind = kind ∧ joins kind = true then
            .node kind (overlayChildren baseChildren children)
          else .node kind children

def overlayChildren (base : List (ι × Tree κ ι α)) :
    List (ι × Tree κ ι α) → List (ι × Tree κ ι α)
  | [] => base
  | (label, t) :: rest =>
      match child label base with
      | some old => overlayChildren (Dict.setEntries label (overlay old t) base) rest
      | none => overlayChildren (Dict.setEntries label t base) rest

end

/-- What the overlay has at a place where the two trees have `old` and `new`. -/
def overlayOption : Option (Tree κ ι α) → Option (Tree κ ι α) → Option (Tree κ ι α)
  | old, none => old
  | none, some new => some new
  | some old, some new => some (overlay joins old new)

variable {joins : κ → Bool} {label : ι} {kind : κ} {bs os : List (ι × Tree κ ι α)}

@[simp] theorem overlay_leaf (base : Tree κ ι α) (value : α) :
    overlay joins base (.leaf value) = .leaf value := rfl

@[simp] theorem overlay_onto_leaf (value : α) (t : Tree κ ι α) :
    overlay joins (.leaf value) t = t := by
  cases t with
  | leaf value => rfl
  | node kind children => rfl

theorem overlay_joined (hjoins : joins kind = true) :
    overlay joins (.node kind bs) (.node kind os) = .node kind (overlayChildren joins bs os) := by
  simp [overlay, hjoins]

theorem overlay_replaced {base t : Tree κ ι α}
    (h : ¬ ∃ kind bs os, base = .node kind bs ∧ t = .node kind os ∧ joins kind = true) :
    overlay joins base t = t := by
  cases t with
  | leaf value => rfl
  | node kind children =>
      cases base with
      | leaf value => rfl
      | node baseKind baseChildren =>
          rw [overlay, if_neg]
          rintro ⟨rfl, hjoins⟩
          exact h ⟨_, _, _, rfl, rfl, hjoins⟩

theorem overlayOption_replaced {old : Option (Tree κ ι α)} {new : Tree κ ι α}
    (h : ∀ t, old = some t →
      ¬ ∃ kind bs os, t = .node kind bs ∧ new = .node kind os ∧ joins kind = true) :
    overlayOption joins old (some new) = some new := by
  cases old with
  | none => rfl
  | some t => exact congrArg some (overlay_replaced (h t rfl))

@[simp] theorem overlayOption_leaf (old : Option (Tree κ ι α)) (value : α) :
    overlayOption joins old (some (.leaf value)) = some (.leaf value) := by
  cases old with
  | none => rfl
  | some t => rfl

theorem overlayChildren_cons (t : Tree κ ι α) (rest : List (ι × Tree κ ι α)) :
    overlayChildren joins bs ((label, t) :: rest) =
      overlayChildren joins
        (Dict.setEntries label ((overlayOption joins (child label bs) (some t)).getD t) bs)
        rest := by
  rw [overlayChildren]
  cases child label bs with
  | none => rfl
  | some old => rfl

theorem child_overlayChildren (hnodup : (os.map Prod.fst).Nodup) (label : ι) :
    child label (overlayChildren joins bs os) =
      overlayOption joins (child label bs) (child label os) := by
  induction os generalizing bs with
  | nil => rfl
  | cons o os ih =>
      obtain ⟨key, t⟩ := o
      simp only [List.map_cons, List.nodup_cons] at hnodup
      rw [overlayChildren_cons, ih hnodup.2]
      by_cases hlabel : key = label
      · subst hlabel
        rw [child_setEntries_self, child_eq_none_iff.mpr hnodup.1, child, if_pos rfl]
        cases child key bs with
        | none => rfl
        | some old => rfl
      · rw [child_setEntries_ne (Ne.symm hlabel), child, if_neg hlabel]

/-- The labels of the base keep their order, and those of the overlay alone follow. -/
theorem labels_overlayChildren (hnodup : (os.map Prod.fst).Nodup) :
    (overlayChildren joins bs os).map Prod.fst =
      bs.map Prod.fst ++ (os.map Prod.fst).filter (fun label => label ∉ bs.map Prod.fst) := by
  induction os generalizing bs with
  | nil => simp [overlayChildren]
  | cons o os ih =>
      obtain ⟨key, t⟩ := o
      simp only [List.map_cons, List.nodup_cons] at hnodup
      rw [overlayChildren_cons, ih hnodup.2, labels_setEntries, List.map_cons]
      by_cases hkey : key ∈ bs.map Prod.fst
      · rw [if_pos hkey, List.filter_cons_of_neg (by simpa using hkey)]
      · have hfilter : (os.map Prod.fst).filter
            (fun label => label ∉ bs.map Prod.fst ++ [key]) =
            (os.map Prod.fst).filter (fun label => label ∉ bs.map Prod.fst) := by
          apply List.filter_congr
          intro label hlabel
          have hne : label ≠ key := by
            rintro rfl
            exact hnodup.1 hlabel
          simp [hne]
        rw [if_neg hkey, hfilter, List.filter_cons_of_pos (by simpa using hkey), List.append_assoc]
        rfl

theorem nodup_labels_overlayChildren (hbs : (bs.map Prod.fst).Nodup)
    (hos : (os.map Prod.fst).Nodup) :
    ((overlayChildren joins bs os).map Prod.fst).Nodup := by
  rw [labels_overlayChildren hos]
  refine hbs.append (hos.filter _) ?_
  intro label hbase hover
  simpa [hbase] using (List.mem_filter.mp hover).2

/-- A property that merged children keep is kept by overlays. -/
theorem Everywhere.overlay {P : κ → List (ι × Tree κ ι α) → Prop}
    (hnodup : ∀ kind children, P kind children → (children.map Prod.fst).Nodup)
    (hmerged : ∀ kind bs os, joins kind = true → P kind bs → P kind os →
      P kind (overlayChildren joins bs os))
    {base t : Tree κ ι α} (hbase : Everywhere P base) (h : Everywhere P t) :
    Everywhere P (overlay joins base t) := by
  induction t using induct generalizing base with
  | leaf value => exact .leaf value
  | node kind os ih =>
      by_cases hjoined : ∃ k bs os', base = .node k bs ∧
          Tree.node kind os = .node k os' ∧ joins k = true
      · obtain ⟨k, bs, os', rfl, hkind, hjoins⟩ := hjoined
        cases hkind
        obtain ⟨hbs, hbelow⟩ := everywhere_node_iff.mp hbase
        obtain ⟨hos, hover⟩ := everywhere_node_iff.mp h
        rw [overlay_joined hjoins]
        refine .node (hmerged kind bs os hjoins hbs hos) fun c hc => ?_
        have hchild := child_of_mem
          (nodup_labels_overlayChildren (hnodup _ _ hbs) (hnodup _ _ hos)) hc
        rw [child_overlayChildren (hnodup _ _ hos)] at hchild
        cases ho : child c.1 os with
        | none =>
            rw [ho] at hchild
            exact hbelow _ (mem_of_child hchild)
        | some o =>
            cases hb : child c.1 bs with
            | none =>
                rw [ho, hb] at hchild
                cases hchild
                exact hover _ (mem_of_child ho)
            | some b =>
                rw [ho, hb, overlayOption, Option.some.injEq] at hchild
                rw [← hchild]
                exact ih _ (mem_of_child ho) (hbelow _ (mem_of_child hb))
                  (hover _ (mem_of_child ho))
      · rw [overlay_replaced hjoined]
        exact h

end Overlay

section Idempotence

theorem Distinct.nodup {kind : κ} {children : List (ι × Tree κ ι α)}
    (h : Distinct (.node kind children)) : (children.map Prod.fst).Nodup :=
  (everywhere_node_iff.mp h).1

theorem Distinct.below [DecidableEq ι] {kind : κ} {children : List (ι × Tree κ ι α)}
    (h : Distinct (.node kind children)) {label : ι} {t : Tree κ ι α}
    (hchild : child label children = some t) : Distinct t :=
  (everywhere_node_iff.mp h).2 _ (mem_of_child hchild)

variable [DecidableEq κ] [DecidableEq ι] {joins : κ → Bool}

theorem overlay_self {t : Tree κ ι α} (h : Distinct t) : overlay joins t t = t := by
  induction t using induct with
  | leaf value => rfl
  | node kind children ih =>
      by_cases hjoins : joins kind = true
      · have hlabels : (overlayChildren joins children children).map Prod.fst =
            children.map Prod.fst := by
          rw [labels_overlayChildren h.nodup, List.filter_eq_nil_iff.mpr (by simp)]
          simp
        have hchild : ∀ label, child label (overlayChildren joins children children) =
            child label children := by
          intro label
          rw [child_overlayChildren h.nodup]
          cases hc : child label children with
          | none => rfl
          | some c =>
              exact congrArg some (ih _ (mem_of_child hc) (h.below hc))
        rw [overlay_joined hjoins,
          children_ext hlabels (by rw [hlabels]; exact h.nodup) hchild]
      · apply overlay_replaced
        rintro ⟨kind', bs, os, hb, -, hjoins'⟩
        cases hb
        exact hjoins hjoins'

/-- A second overlay of the same tree changes nothing. -/
theorem overlay_overlay {base t : Tree κ ι α} (hbase : Distinct base) (h : Distinct t) :
    overlay joins (overlay joins base t) t = overlay joins base t := by
  induction t using induct generalizing base with
  | leaf value => rfl
  | node kind os ih =>
      by_cases hjoined : ∃ k bs os', base = .node k bs ∧
          Tree.node kind os = .node k os' ∧ joins k = true
      · obtain ⟨k, bs, os', rfl, hkind, hjoins⟩ := hjoined
        cases hkind
        have hnodup : ((overlayChildren joins bs os).map Prod.fst).Nodup :=
          nodup_labels_overlayChildren hbase.nodup h.nodup
        have hlabels : (overlayChildren joins (overlayChildren joins bs os) os).map Prod.fst =
            (overlayChildren joins bs os).map Prod.fst := by
          rw [labels_overlayChildren h.nodup, List.filter_eq_nil_iff.mpr, List.append_nil]
          intro label hlabel
          simp only [labels_overlayChildren h.nodup, List.mem_append, List.mem_filter]
          by_cases hmem : label ∈ bs.map Prod.fst
          · simp [hmem]
          · simp only [hmem, hlabel]
            simp
        have hchild : ∀ label,
            child label (overlayChildren joins (overlayChildren joins bs os) os) =
              child label (overlayChildren joins bs os) := by
          intro label
          rw [child_overlayChildren h.nodup, child_overlayChildren h.nodup]
          cases ho : child label os with
          | none => rfl
          | some o =>
              cases hb : child label bs with
              | none => exact congrArg some (overlay_self (h.below ho))
              | some b =>
                  exact congrArg some (ih _ (mem_of_child ho) (hbase.below hb) (h.below ho))
        rw [overlay_joined hjoins, overlay_joined hjoins,
          children_ext hlabels (by rw [hlabels]; exact hnodup) hchild]
      · rw [overlay_replaced hjoined, overlay_self h]

end Idempotence

section Paths

variable [DecidableEq ι]

def place : Tree κ ι α → List ι → Option (Tree κ ι α)
  | t, [] => some t
  | .leaf _, _ :: _ => none
  | .node _ children, label :: path =>
      match child label children with
      | some t => t.place path
      | none => none

def LeafAt (t : Tree κ ι α) (path : List ι) (value : α) : Prop :=
  t.place path = some (.leaf value)

variable (joins : κ → Bool)

/-- Both trees have nodes at the path that are merged child by child. -/
def Joined (base t : Tree κ ι α) (path : List ι) : Prop :=
  ∃ kind bs os, base.place path = some (.node kind bs) ∧ t.place path = some (.node kind os) ∧
    joins kind = true

/-- The tree sets the path or a prefix of it that is not merged with the base. -/
def Overridden (base t : Tree κ ι α) (path : List ι) : Prop :=
  ∃ front, front <+: path ∧ (t.place front).isSome ∧ ¬ Joined joins base t front

variable {joins : κ → Bool} {kind : κ} {bs os : List (ι × Tree κ ι α)}

@[simp] theorem place_nil (t : Tree κ ι α) : t.place [] = some t := by
  cases t <;> rfl

theorem place_node (label : ι) (path : List ι) :
    (Tree.node kind bs).place (label :: path) = (child label bs).bind fun t => t.place path := by
  rw [place]
  cases child label bs <;> rfl

theorem isSome_place_front {t : Tree κ ι α} {front path : List ι} (hfront : front <+: path)
    (h : (t.place path).isSome) : (t.place front).isSome := by
  induction front generalizing t path with
  | nil => simp
  | cons label front ih =>
      obtain ⟨rest, rfl⟩ := hfront
      cases t with
      | leaf value => simp [place] at h
      | node kind children =>
          rw [List.cons_append, place_node] at h
          rw [place_node]
          cases hc : child label children with
          | none => simp [hc] at h
          | some c =>
              rw [hc] at h
              exact ih (List.prefix_append front rest) h

theorem joined_cons {b o : Tree κ ι α} {label : ι} (hb : child label bs = some b)
    (ho : child label os = some o) (path : List ι) :
    Joined joins (.node kind bs) (.node kind os) (label :: path) ↔ Joined joins b o path := by
  simp [Joined, place_node, hb, ho]

theorem overridden_cons {b o : Tree κ ι α} {label : ι} (hjoins : joins kind = true)
    (hb : child label bs = some b) (ho : child label os = some o) (path : List ι) :
    Overridden joins (.node kind bs) (.node kind os) (label :: path) ↔
      Overridden joins b o path := by
  constructor
  · rintro ⟨front, hfront, hset, hjoined⟩
    cases front with
    | nil => exact absurd ⟨kind, bs, os, place_nil _, place_nil _, hjoins⟩ hjoined
    | cons key front =>
        obtain ⟨rfl, hrest⟩ := List.cons_prefix_cons.mp hfront
        rw [place_node, ho] at hset
        rw [joined_cons hb ho] at hjoined
        exact ⟨front, hrest, hset, hjoined⟩
  · rintro ⟨front, hfront, hset, hjoined⟩
    refine ⟨label :: front, List.cons_prefix_cons.mpr ⟨rfl, hfront⟩, ?_, ?_⟩
    · rw [place_node, ho]
      exact hset
    · rwa [joined_cons hb ho]

theorem Overridden.extend {base t : Tree κ ι α} {front path : List ι}
    (hfront : front <+: path) (h : Overridden joins base t front) :
    Overridden joins base t path := by
  obtain ⟨first, hfirst, hset, hjoined⟩ := h
  exact ⟨first, hfirst.trans hfront, hset, hjoined⟩

/-- What is set and does not override is merged. -/
theorem joined_of_not_overridden {base t : Tree κ ι α} {path : List ι}
    (h : ¬ Overridden joins base t path) (hset : (t.place path).isSome) :
    Joined joins base t path := by
  by_contra hjoined
  exact h ⟨path, List.prefix_rfl, hset, hjoined⟩

theorem Distinct.place {t s : Tree κ ι α} (h : Distinct t) {path : List ι}
    (hplace : t.place path = some s) : Distinct s := by
  induction path generalizing t with
  | nil =>
      rw [place_nil] at hplace
      cases hplace
      exact h
  | cons label path ih =>
      cases t with
      | leaf value => simp [Tree.place] at hplace
      | node kind children =>
          rw [place_node] at hplace
          obtain ⟨c, hc, hrest⟩ := Option.bind_eq_some_iff.mp hplace
          exact ih (h.below hc) hrest

end Paths

section OverlayPaths

variable [DecidableEq κ] [DecidableEq ι] {joins : κ → Bool}

omit [DecidableEq κ] in
/-- Below a label that the new tree does not have, nothing is overridden. -/
theorem not_overridden_missing {k : κ} {bs os : List (ι × Tree κ ι α)} {label : ι}
    {path : List ι} (hjoins : joins k = true) (ho : child label os = none) :
    ¬ Overridden joins (.node k bs) (.node k os) (label :: path) := by
  rintro ⟨front, hfront, hset, hnot⟩
  cases front with
  | nil => exact hnot ⟨k, bs, os, place_nil _, place_nil _, hjoins⟩
  | cons key front =>
      obtain ⟨rfl, hrest⟩ := List.cons_prefix_cons.mp hfront
      rw [place_node, ho] at hset
      simp at hset

/-- The overlay has the new tree where a path is overridden, and else merges what the two trees
have there. -/
theorem place_overlay (joins : κ → Bool) (base : Tree κ ι α) {t : Tree κ ι α} (h : Distinct t)
    (path : List ι) :
    (Overridden joins base t path → (overlay joins base t).place path = t.place path) ∧
      (¬ Overridden joins base t path → (overlay joins base t).place path =
        overlayOption joins (base.place path) (t.place path)) := by
  induction path generalizing base t with
  | nil =>
      constructor
      · rintro ⟨front, hfront, -, hjoined⟩
        rw [List.prefix_nil.mp hfront] at hjoined
        rw [overlay_replaced]
        rintro ⟨kind, bs, os, rfl, rfl, hjoins⟩
        exact hjoined ⟨kind, bs, os, place_nil _, place_nil _, hjoins⟩
      · intro _
        simp [overlayOption]
  | cons label path ih =>
      by_cases hjoined : ∃ k bs os, base = .node k bs ∧ t = .node k os ∧ joins k = true
      · obtain ⟨k, bs, os, rfl, rfl, hjoins⟩ := hjoined
        rw [overlay_joined hjoins, place_node, place_node, place_node,
          child_overlayChildren h.nodup]
        cases ho : child label os with
        | none =>
            refine ⟨fun hover => absurd hover (not_overridden_missing hjoins ho), fun _ => ?_⟩
            cases child label bs with
            | none => rfl
            | some b => cases b.place path <;> rfl
        | some o =>
            cases hb : child label bs with
            | none =>
                refine ⟨fun _ => rfl, fun _ => ?_⟩
                change o.place path = overlayOption joins none (o.place path)
                cases o.place path <;> rfl
            | some b =>
                rw [overridden_cons hjoins hb ho]
                exact ih b (h.below ho)
      · have hover : Overridden joins base t (label :: path) := by
          refine ⟨[], List.nil_prefix, by simp, ?_⟩
          rintro ⟨k, bs, os, hb, ho, hjoins⟩
          simp only [place_nil, Option.some.injEq] at hb ho
          exact hjoined ⟨k, bs, os, hb, ho, hjoins⟩
        rw [overlay_replaced hjoined]
        exact ⟨fun _ => rfl, fun hfree => absurd hover hfree⟩

theorem leafAt_overlay_iff {base t : Tree κ ι α} (h : Distinct t) (path : List ι) (value : α) :
    LeafAt (overlay joins base t) path value ↔
      LeafAt t path value ∨ (LeafAt base path value ∧ ¬ Overridden joins base t path) := by
  obtain ⟨hover, hfree⟩ := place_overlay joins base h path
  by_cases hpath : Overridden joins base t path
  · simp [LeafAt, hover hpath, hpath]
  · simp only [LeafAt, hfree hpath, hpath, not_false_eq_true, and_true]
    cases hnew : t.place path with
    | none => simp [overlayOption]
    | some new =>
        obtain ⟨kind, bs, os, hb, ho, hjoins⟩ :=
          joined_of_not_overridden hpath (by rw [hnew]; rfl)
        rw [hnew] at ho
        cases ho
        simp [hb, overlayOption, overlay_joined hjoins]

theorem isSome_place_overlay {base t : Tree κ ι α} (h : Distinct t) (path : List ι) :
    ((overlay joins base t).place path).isSome ↔
      (t.place path).isSome ∨
        ((base.place path).isSome ∧ ¬ Overridden joins base t path) := by
  obtain ⟨hover, hfree⟩ := place_overlay joins base h path
  by_cases hpath : Overridden joins base t path
  · simp [hover hpath, hpath]
  · rw [hfree hpath]
    cases base.place path <;> cases t.place path <;> simp [overlayOption, hpath]

/-- Where both trees have nodes that are merged, the labels of the base come first. -/
theorem labels_overlay {base t : Tree κ ι α} (h : Distinct t) {path : List ι}
    (hpath : ¬ Overridden joins base t path) {kind : κ} {bs os : List (ι × Tree κ ι α)}
    (hb : base.place path = some (.node kind bs)) (ho : t.place path = some (.node kind os)) :
    ∃ ms, (overlay joins base t).place path = some (.node kind ms) ∧
      ms.map Prod.fst =
        bs.map Prod.fst ++ (os.map Prod.fst).filter (fun label => label ∉ bs.map Prod.fst) := by
  obtain ⟨k, bs', os', hb', ho', hjoins⟩ :=
    joined_of_not_overridden hpath (by rw [ho]; rfl)
  rw [hb] at hb'
  rw [ho] at ho'
  cases hb'
  cases ho'
  refine ⟨overlayChildren joins bs os, ?_, labels_overlayChildren (h.place ho).nodup⟩
  rw [(place_overlay joins base h path).2 hpath, hb, ho, overlayOption, overlay_joined hjoins]

end OverlayPaths

section Levels

variable [DecidableEq κ] [DecidableEq ι] {joins : κ → Bool}

/-- Of levels, the most specific first, the one whose leaf stands at a path: no more specific
level overrides it. -/
inductive Resolves (joins : κ → Bool) (path : List ι) (value : α) :
    List (Tree κ ι α) → Tree κ ι α → Prop
  | here {t : Tree κ ι α} {rest : List (Tree κ ι α)} (hleaf : LeafAt t path value) :
      Resolves joins path value (t :: rest) t
  | beneath {t level : Tree κ ι α} {rest : List (Tree κ ι α)}
      (hlevel : Resolves joins path value rest level)
      (hfree : ¬ Overridden joins level t path) : Resolves joins path value (t :: rest) level

/-- Two trees have nodes of the same kinds along a path. -/
def SameKinds (s t : Tree κ ι α) (path : List ι) : Prop :=
  ∀ front, front <+: path → ∀ kind,
    (∃ children, s.place front = some (.node kind children)) ↔
      ∃ children, t.place front = some (.node kind children)

omit [DecidableEq κ] in
theorem SameKinds.trans {r s t : Tree κ ι α} {path : List ι} (hrs : SameKinds r s path)
    (hst : SameKinds s t path) : SameKinds r t path :=
  fun front hfront kind => (hrs front hfront kind).trans (hst front hfront kind)

omit [DecidableEq κ] in
theorem SameKinds.overridden_iff {s s' t : Tree κ ι α} {path : List ι}
    (h : SameKinds s s' path) : Overridden joins s t path ↔ Overridden joins s' t path := by
  have hjoined : ∀ front, front <+: path → (Joined joins s t front ↔ Joined joins s' t front) := by
    intro front hfront
    constructor
    · rintro ⟨kind, bs, os, hb, ho, hjoins⟩
      obtain ⟨bs', hb'⟩ := (h front hfront kind).mp ⟨bs, hb⟩
      exact ⟨kind, bs', os, hb', ho, hjoins⟩
    · rintro ⟨kind, bs, os, hb, ho, hjoins⟩
      obtain ⟨bs', hb'⟩ := (h front hfront kind).mpr ⟨bs, hb⟩
      exact ⟨kind, bs', os, hb', ho, hjoins⟩
  constructor
  · rintro ⟨front, hfront, hset, hnot⟩
    exact ⟨front, hfront, hset, fun hj => hnot ((hjoined front hfront).mpr hj)⟩
  · rintro ⟨front, hfront, hset, hnot⟩
    exact ⟨front, hfront, hset, fun hj => hnot ((hjoined front hfront).mp hj)⟩

theorem sameKinds_overlay_new {base t : Tree κ ι α} (h : Distinct t) {path : List ι}
    (hset : (t.place path).isSome) : SameKinds (overlay joins base t) t path := by
  intro front hfront kind
  obtain ⟨hover, hfree⟩ := place_overlay joins base h front
  by_cases hpath : Overridden joins base t front
  · rw [hover hpath]
  · obtain ⟨k, bs, os, hb, ho, hjoins⟩ :=
      joined_of_not_overridden hpath (isSome_place_front hfront hset)
    rw [hfree hpath, hb, ho, overlayOption, overlay_joined hjoins]
    simp

theorem sameKinds_overlay_base {base t : Tree κ ι α} (h : Distinct t) {path : List ι}
    (hpath : ¬ Overridden joins base t path) : SameKinds (overlay joins base t) base path := by
  intro front hfront kind
  have hfree : ¬ Overridden joins base t front := fun hover => hpath (hover.extend hfront)
  rw [(place_overlay joins base h front).2 hfree]
  cases hset : t.place front with
  | none => simp [overlayOption]
  | some new =>
      obtain ⟨k, bs, os, hb, ho, hjoins⟩ :=
        joined_of_not_overridden hfree (by rw [hset]; rfl)
      rw [hset] at ho
      cases ho
      rw [hb, overlayOption, overlay_joined hjoins]
      simp

variable {path : List ι} {value : α} {levels : List (Tree κ ι α)} {base : Tree κ ι α}

theorem leafAt_of_resolves (hlevels : ∀ t ∈ levels, Distinct t) {level : Tree κ ι α}
    (h : Resolves joins path value (levels ++ [base]) level) :
    LeafAt (levels.foldr (fun t base => overlay joins base t) base) path value ∧
      SameKinds (levels.foldr (fun t base => overlay joins base t) base) level path := by
  induction levels with
  | nil =>
      cases h with
      | here hleaf => exact ⟨hleaf, fun _ _ _ => Iff.rfl⟩
      | beneath hlevel => cases hlevel
  | cons t levels ih =>
      have hdistinct : Distinct t := hlevels t (by simp)
      rw [List.foldr_cons]
      cases h with
      | here hleaf =>
          exact ⟨(leafAt_overlay_iff hdistinct path value).mpr (.inl hleaf),
            sameKinds_overlay_new hdistinct (by rw [hleaf]; rfl)⟩
      | beneath hlevel hfree =>
          obtain ⟨hleaf, hkinds⟩ := ih (fun s hs => hlevels s (by simp [hs])) hlevel
          rw [← hkinds.overridden_iff] at hfree
          exact ⟨(leafAt_overlay_iff hdistinct path value).mpr (.inr ⟨hleaf, hfree⟩),
            (sameKinds_overlay_base hdistinct hfree).trans hkinds⟩

/-- Of levels laid over each other, a leaf is that of the most specific level that sets its
path. -/
theorem leafAt_levels_iff (hlevels : ∀ t ∈ levels, Distinct t) :
    LeafAt (levels.foldr (fun t base => overlay joins base t) base) path value ↔
      ∃ level, Resolves joins path value (levels ++ [base]) level := by
  constructor
  · intro h
    induction levels with
    | nil => exact ⟨base, .here h⟩
    | cons t levels ih =>
        have hrest : ∀ s ∈ levels, Distinct s := fun s hs => hlevels s (by simp [hs])
        rw [List.foldr_cons] at h
        rcases (leafAt_overlay_iff (hlevels t (by simp)) path value).mp h with
          hleaf | ⟨hleaf, hfree⟩
        · exact ⟨t, .here hleaf⟩
        · obtain ⟨level, hlevel⟩ := ih hrest hleaf
          rw [(leafAt_of_resolves hrest hlevel).2.overridden_iff] at hfree
          exact ⟨level, .beneath hlevel hfree⟩
  · rintro ⟨level, hlevel⟩
    exact (leafAt_of_resolves hlevels hlevel).1

end Levels

end Tree

end Finiex.Lib
