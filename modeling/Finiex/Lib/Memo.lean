import Finiex.Lib.Dict

namespace Finiex.Lib

def Dict.dropOldest {κ α : Type} (n : ℕ) (d : Dict κ α) : Dict κ α :=
  ⟨d.entries.drop n, d.nodup.sublist ((List.drop_sublist n d.entries).map Prod.fst)⟩

namespace Memo

variable {α β κ σ : Type}

/-- How a table is used: the key of an input, the function it keeps the values of, and how
many of the oldest entries go once there are more than `limit`. -/
structure Use (α β κ : Type) where
  key : α → κ
  compute : α → β
  limit : ℕ
  dropped : ℕ

/-- Inputs with one key have one value. -/
def Use.Respects (use : Use α β κ) : Prop :=
  ∀ ⦃x y⦄, use.key x = use.key y → use.compute x = use.compute y

/-- Each entry is the value of the inputs with its key. -/
def Use.Sound (use : Use α β κ) (table : Dict κ β) : Prop :=
  ∀ entry ∈ table.entries, ∀ x, use.key x = entry.1 → entry.2 = use.compute x

variable {use : Use α β κ} {table : Dict κ β}

theorem sound_empty : use.Sound ∅ := fun _ hentry => absurd hentry List.not_mem_nil

theorem sound_dropOldest (hsound : use.Sound table) (n : ℕ) :
    use.Sound (table.dropOldest n) :=
  fun entry hentry => hsound entry ((List.drop_sublist n table.entries).subset hentry)

variable [DecidableEq κ]

def Use.lookup (use : Use α β κ) (table : Dict κ β) (x : α) : β × Dict κ β :=
  match table.get? (use.key x) with
  | some value => (value, table)
  | none =>
      let extended := table.set (use.key x) (use.compute x)
      (use.compute x, if use.limit < extended.size then extended.dropOldest use.dropped else extended)

/-- A sound table answers like the function. -/
theorem lookup_fst (hsound : use.Sound table) (x : α) :
    (use.lookup table x).1 = use.compute x := by
  unfold Use.lookup
  split
  · next value hvalue => exact hsound (use.key x, value) (table.get?_eq_some_iff.mp hvalue) x rfl
  · rfl

theorem sound_set (hrespects : use.Respects) (hsound : use.Sound table) (x : α) :
    use.Sound (table.set (use.key x) (use.compute x)) := by
  intro entry hentry y hkey
  rcases Dict.mem_set_entries.mp hentry with rfl | ⟨hold, -⟩
  · exact (hrespects hkey).symm
  · exact hsound entry hold y hkey

/-- Looking up keeps the table sound, also when entries are dropped. -/
theorem sound_lookup (hrespects : use.Respects) (hsound : use.Sound table) (x : α) :
    use.Sound (use.lookup table x).2 := by
  unfold Use.lookup
  split
  · exact hsound
  · have hset := sound_set hrespects hsound x
    dsimp only
    split
    · exact sound_dropOldest hset use.dropped
    · exact hset

/-- A loop over inputs that reads the value of each through the table. -/
def Use.loop (use : Use α β κ) (step : σ → α → β → σ) (s : σ) (table : Dict κ β) :
    List α → σ × Dict κ β
  | [] => (s, table)
  | x :: xs =>
      let (value, table) := use.lookup table x
      use.loop step (step s x value) table xs

/-- The loop computes what it computes without the table, and keeps it sound. -/
theorem loop_eq (hrespects : use.Respects) (step : σ → α → β → σ) (s : σ)
    (hsound : use.Sound table) (xs : List α) :
    (use.loop step s table xs).1 = xs.foldl (fun s x => step s x (use.compute x)) s ∧
      use.Sound (use.loop step s table xs).2 := by
  induction xs generalizing s table with
  | nil => exact ⟨rfl, hsound⟩
  | cons x xs ih =>
      have hrest := ih (step s x (use.lookup table x).1) (sound_lookup hrespects hsound x)
      refine ⟨?_, hrest.2⟩
      rw [List.foldl_cons, ← lookup_fst hsound x]
      exact hrest.1

end Memo

end Finiex.Lib
