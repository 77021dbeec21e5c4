import Mathlib.Data.Nat.Notation
import Mathlib.Logic.Function.Basic

/-!
# Files

Names that stand for files, files that are written through open handles by several writers, and the
atomic replacement of one name by another.
-/

namespace Finiex.Lib

/-- The files by their names; a file has a complete text or is still being written, and knows who
wrote to it last. -/
structure FileSystem (κ β α : Type) where
  inode : κ → Option ℕ := fun _ => none
  content : ℕ → Option α := fun _ => none
  writer : ℕ → Option β := fun _ => none
  fresh : ℕ := 0

namespace FileSystem

variable {κ β α : Type} {fs fs' : FileSystem κ β α} {name other source target : κ} {i handle : ℕ}

/-- What is read of a name: nothing, or the text of its file as far as it is complete. -/
def read (fs : FileSystem κ β α) (name : κ) : Option (Option α) := (fs.inode name).map fs.content

structure WellFormed (fs : FileSystem κ β α) : Prop where
  allocated : ∀ name i, fs.inode name = some i → i < fs.fresh
  single : ∀ name name' i, fs.inode name = some i → fs.inode name' = some i → name = name'

/-- A name stands for the same file with the same text. -/
structure Same (fs fs' : FileSystem κ β α) (name : κ) : Prop where
  inode : fs'.inode name = fs.inode name
  content : ∀ i ∈ fs.inode name, fs'.content i = fs.content i
  writer : ∀ i ∈ fs.inode name, fs'.writer i = fs.writer i

theorem wellFormed_empty : WellFormed ({} : FileSystem κ β α) where
  allocated name i h := by simp at h
  single name name' i h := by simp at h

theorem Same.of_eq (h : fs' = fs) : Same fs fs' name := by
  subst h
  exact ⟨rfl, fun _ _ => rfl, fun _ _ => rfl⟩

theorem Same.read (h : Same fs fs' name) : fs'.read name = fs.read name := by
  unfold FileSystem.read
  rw [h.inode]
  cases hinode : fs.inode name with
  | none => rfl
  | some i => simp [h.content i hinode]

theorem WellFormed.apart (h : fs.WellFormed) (hname : fs.inode name = some handle)
    (hother : other ≠ name) : fs.inode other ≠ some handle :=
  fun hi => hother (h.single other name handle hi hname)

section Opening

variable [DecidableEq κ]

def openForWriting (fs : FileSystem κ β α) (writer : β) (name : κ) : FileSystem κ β α × ℕ :=
  match fs.inode name with
  | some i =>
      ({ fs with
          content := Function.update fs.content i none
          writer := Function.update fs.writer i (some writer) }, i)
  | none =>
      ({ inode := Function.update fs.inode name (some fs.fresh)
         content := Function.update fs.content fs.fresh none
         writer := Function.update fs.writer fs.fresh (some writer)
         fresh := fs.fresh + 1 }, fs.fresh)

/-- The file of one name becomes that of another, which fails if there is none. -/
def replace (fs : FileSystem κ β α) (source target : κ) : Option (FileSystem κ β α) :=
  (fs.inode source).map fun i =>
    { fs with inode := Function.update (Function.update fs.inode target (some i)) source none }

/-- A file that is there keeps its number, and a new one gets the next. -/
theorem openForWriting_inode (fs : FileSystem κ β α) (writer : β) (name other : κ) :
    (fs.openForWriting writer name).1.inode other =
      if other = name then some (fs.openForWriting writer name).2 else fs.inode other := by
  unfold openForWriting
  cases hinode : fs.inode name with
  | some i =>
      show fs.inode other = _
      split
      · next heq => rw [heq, hinode]
      · rfl
  | none => exact Function.update_apply _ _ _ _

theorem openForWriting_handle (fs : FileSystem κ β α) (writer : β) (name : κ) :
    fs.inode name = some (fs.openForWriting writer name).2 ∨
      (fs.openForWriting writer name).2 = fs.fresh := by
  unfold openForWriting
  cases hinode : fs.inode name with
  | some i => exact .inl rfl
  | none => exact .inr rfl

theorem openForWriting_fresh (h : fs.WellFormed) (writer : β) (name : κ) :
    fs.fresh ≤ (fs.openForWriting writer name).1.fresh ∧
      (fs.openForWriting writer name).2 < (fs.openForWriting writer name).1.fresh := by
  unfold openForWriting
  cases hinode : fs.inode name with
  | some i => exact ⟨Nat.le_refl _, h.allocated name i hinode⟩
  | none => exact ⟨Nat.le_succ _, Nat.lt_succ_self _⟩

theorem openForWriting_writer (fs : FileSystem κ β α) (writer : β) (name : κ) :
    (fs.openForWriting writer name).1.writer (fs.openForWriting writer name).2 = some writer := by
  unfold openForWriting
  cases fs.inode name with
  | some i => exact Function.update_self _ _ _
  | none => exact Function.update_self _ _ _

theorem handle_apart (h : fs.WellFormed) (writer : β) (hother : other ≠ name) :
    fs.inode other ≠ some (fs.openForWriting writer name).2 := by
  rcases openForWriting_handle fs writer name with hname | hfresh
  · exact h.apart hname hother
  · intro hi
    have hlt := h.allocated other _ hi
    omega

theorem same_openForWriting (h : fs.WellFormed) (writer : β) (hother : other ≠ name) :
    Same fs (fs.openForWriting writer name).1 other := by
  have hapart (j : ℕ) (hj : fs.inode other = some j) :
      j ≠ (fs.openForWriting writer name).2 := by
    rintro rfl
    exact handle_apart h writer hother hj
  refine ⟨by rw [openForWriting_inode, if_neg hother], ?_, ?_⟩ <;>
  · intro j hj
    have hne := hapart j hj
    unfold openForWriting at hne ⊢
    cases hinode : fs.inode name with
    | some i =>
        rw [hinode] at hne
        exact Function.update_of_ne hne _ _
    | none =>
        rw [hinode] at hne
        exact Function.update_of_ne hne _ _

theorem wellFormed_openForWriting (h : fs.WellFormed) (writer : β) (name : κ) :
    (fs.openForWriting writer name).1.WellFormed := by
  have hfresh := openForWriting_fresh h writer name
  constructor
  · intro other j hj
    rw [openForWriting_inode] at hj
    split at hj
    · exact Option.some.inj hj ▸ hfresh.2
    · exact Nat.lt_of_lt_of_le (h.allocated other j hj) hfresh.1
  · intro other other' j hj hj'
    rw [openForWriting_inode] at hj hj'
    split at hj
    · next heq =>
        split at hj'
        · next heq' => rw [heq, heq']
        · next hne => exact absurd (hj'.trans hj.symm) (handle_apart h writer hne)
    · next hne =>
        split at hj'
        · exact absurd (hj.trans hj'.symm) (handle_apart h writer hne)
        · exact h.single other other' j hj hj'

theorem replace_some (h : fs.replace source target = some fs') :
    ∃ i, fs.inode source = some i ∧ fs'.content = fs.content ∧ fs'.writer = fs.writer ∧
      fs'.fresh = fs.fresh ∧
      ∀ other, fs'.inode other =
        if other = source then none else if other = target then some i else fs.inode other := by
  obtain ⟨i, hsource, rfl⟩ := Option.map_eq_some_iff.mp h
  refine ⟨i, hsource, rfl, rfl, rfl, ?_⟩
  intro other
  show Function.update (Function.update fs.inode target (some i)) source none other = _
  rw [Function.update_apply, Function.update_apply]

theorem same_replace (h : fs.replace source target = some fs') (hsource : other ≠ source)
    (htarget : other ≠ target) : Same fs fs' other := by
  obtain ⟨i, -, hcontent, hwriter, -, hinode⟩ := replace_some h
  refine ⟨?_, fun j _ => by rw [hcontent], fun j _ => by rw [hwriter]⟩
  rw [hinode, if_neg hsource, if_neg htarget]

theorem wellFormed_replace (h : fs.WellFormed) (hreplace : fs.replace source target = some fs') :
    fs'.WellFormed := by
  obtain ⟨i, hsource, -, -, hfresh, hinode⟩ := replace_some hreplace
  constructor
  · intro other j hj
    rw [hinode] at hj
    rw [hfresh]
    split at hj
    · cases hj
    · split at hj
      · exact Option.some.inj hj ▸ h.allocated source i hsource
      · exact h.allocated other j hj
  · intro other other' j hj hj'
    rw [hinode] at hj hj'
    split at hj
    · cases hj
    · next hother =>
        split at hj'
        · cases hj'
        · next hother' =>
            split at hj
            · next heq =>
                split at hj'
                · next heq' => rw [heq, heq']
                · exact absurd (hj'.trans hj.symm) (h.apart hsource hother')
            · split at hj'
              · exact absurd (hj.trans hj'.symm) (h.apart hsource hother)
              · exact h.single other other' j hj hj'

theorem content_of_openForWriting {writer : β} {text : α}
    (h : (fs.openForWriting writer name).1.content i = some text) : fs.content i = some text := by
  unfold openForWriting at h
  split at h
  all_goals
    simp only [Function.update_apply] at h
    split at h
    · cases h
    · exact h

theorem read_replace (h : fs.replace source target = some fs') (hne : target ≠ source) :
    fs'.read target = fs.read source := by
  obtain ⟨i, hsource, hcontent, -, -, hinode⟩ := replace_some h
  rw [read, read, hinode, if_neg hne, if_pos rfl, hsource, hcontent]

end Opening

section Writing

def writePart (fs : FileSystem κ β α) (writer : β) (handle : ℕ) : FileSystem κ β α :=
  { fs with
    content := Function.update fs.content handle none
    writer := Function.update fs.writer handle (some writer) }

theorem content_of_writePart {writer : β} {text : α}
    (h : (fs.writePart writer handle).content i = some text) : fs.content i = some text := by
  simp only [writePart, Function.update_apply] at h
  split at h
  · cases h
  · exact h

theorem wellFormed_writePart (h : fs.WellFormed) (writer : β) (handle : ℕ) :
    (fs.writePart writer handle).WellFormed :=
  ⟨h.allocated, h.single⟩

theorem same_writePart (writer : β) (hname : fs.inode name ≠ some handle) :
    Same fs (fs.writePart writer handle) name := by
  refine ⟨rfl, ?_, ?_⟩ <;>
  · intro i hi
    have hne : i ≠ handle := by
      rintro rfl
      exact hname hi
    exact Function.update_of_ne hne _ _

variable [DecidableEq β]

/-- The text is complete unless someone else has written to the file. -/
def writeAll (fs : FileSystem κ β α) (writer : β) (handle : ℕ) (text : α) : FileSystem κ β α :=
  { fs with
    content := Function.update fs.content handle
      (if fs.writer handle = some writer then some text else none)
    writer := Function.update fs.writer handle (some writer) }

theorem content_of_writeAll {writer : β} {text other : α}
    (h : (fs.writeAll writer handle text).content i = some other) :
    fs.content i = some other ∨ other = text := by
  simp only [writeAll, Function.update_apply] at h
  split at h
  · split at h
    · exact .inr (Option.some.inj h).symm
    · cases h
  · exact .inl h

theorem wellFormed_writeAll (h : fs.WellFormed) (writer : β) (handle : ℕ) (text : α) :
    (fs.writeAll writer handle text).WellFormed :=
  ⟨h.allocated, h.single⟩

theorem same_writeAll (writer : β) (text : α) (hname : fs.inode name ≠ some handle) :
    Same fs (fs.writeAll writer handle text) name := by
  refine ⟨rfl, ?_, ?_⟩ <;>
  · intro i hi
    have hne : i ≠ handle := by
      rintro rfl
      exact hname hi
    exact Function.update_of_ne hne _ _

theorem read_writeAll {writer : β} (text : α) (hname : fs.inode name = some handle)
    (hwriter : fs.writer handle = some writer) :
    (fs.writeAll writer handle text).read name = some (some text) := by
  show (fs.inode name).map (Function.update fs.content handle _) = _
  rw [hname, Option.map_some, Function.update_self, if_pos hwriter]

end Writing

end FileSystem

end Finiex.Lib
