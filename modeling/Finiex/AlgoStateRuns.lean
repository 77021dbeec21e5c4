import Finiex.AlgoState

namespace Finiex.AlgoState

open Finiex.Types
open Finiex.Lib
open Finiex.Lib.PythonJson

section Runs

variable {β : Type} [DecidableEq β] (python : PythonText) (stores : β → AlgoStateStore)

/-- How far a bot is with a save. -/
inductive Phase
  | idle
  | opening (payload : Payload python.floatRepr)
  | writing (handle : ℕ) (payload : Payload python.floatRepr)
  | closing (payload : Payload python.floatRepr)

inductive Step (β : Type)
  | save (bot : β) (now : Instant) (snapshot : PyValue)
  | openTemporary (bot : β)
  | writePart (bot : β)
  | writeAll (bot : β)
  | replace (bot : β)
  | crash (bot : β)

/-- The directory, what each bot is doing, what it wrote last, and the last call of `save` that it
completed. A save is completed by its replace. -/
structure State (β : Type) where
  files : FileSystem String β Envelope := {}
  saving : β → Phase python := fun _ => .idle
  saved : β → Option (Payload python.floatRepr) := fun _ => none
  lastCall : β → Option (PyValue × Instant) := fun _ => none

variable {python}

def State.setPhase (s : State python β) (bot : β) (phase : Phase python) : State python β :=
  { s with saving := Function.update s.saving bot phase }

variable (python)

/-- `save` up to `_atomic_write`: an empty snapshot is no work, and one that is not serializable
raises before a file is touched. -/
def beginSave (s : State python β) (bot : β) (now : Instant) (snapshot : PyValue) :
    State python β :=
  match serialize python snapshot now with
  | .ok (some payload) => s.setPhase bot (.opening payload)
  | .ok none => { s with lastCall := Function.update s.lastCall bot (some (snapshot, now)) }
  | .error _ => s

/-- `os.replace`, which raises if the temporary file is gone. -/
def finishSave (s : State python β) (bot : β) (payload : Payload python.floatRepr) :
    State python β :=
  match s.files.replace (tmpPath python (stores bot)) (path python (stores bot)) with
  | some files =>
      { files
        saving := Function.update s.saving bot .idle
        saved := Function.update s.saved bot (some payload)
        lastCall := Function.update s.lastCall bot (some (payload.snapshot, payload.savedAt)) }
  | none => s.setPhase bot .idle

/-- A bot makes one save at a time; a step that it is not ready for leaves all as it is. -/
def step (s : State python β) : Step β → State python β
  | .save bot now snapshot =>
      match s.saving bot with
      | .idle => beginSave python s bot now snapshot
      | _ => s
  | .openTemporary bot =>
      match s.saving bot with
      | .opening payload =>
          let opened := s.files.openForWriting bot (tmpPath python (stores bot))
          { s.setPhase bot (.writing opened.2 payload) with files := opened.1 }
      | _ => s
  | .writePart bot =>
      match s.saving bot with
      | .writing handle _ => { s with files := s.files.writePart bot handle }
      | _ => s
  | .writeAll bot =>
      match s.saving bot with
      | .writing handle payload =>
          { s.setPhase bot (.closing payload) with
            files := s.files.writeAll bot handle (envelope python (stores bot) payload) }
      | _ => s
  | .replace bot =>
      match s.saving bot with
      | .closing payload => finishSave python stores s bot payload
      | _ => s
  | .crash bot => s.setPhase bot .idle

def runSteps (steps : List (Step β)) : State python β :=
  steps.foldl (step python stores) {}

end Runs

section Effects

variable {β : Type} [DecidableEq β] {python : PythonText}

def Step.bot : Step β → β
  | .save bot _ _ => bot
  | .openTemporary bot => bot
  | .writePart bot => bot
  | .writeAll bot => bot
  | .replace bot => bot
  | .crash bot => bot

variable (stores : β → AlgoStateStore)

inductive Effect (s : State python β) (bot : β) : State python β → Prop
  | none {s' : State python β} (files : s'.files = s.files) (saved : s'.saved = s.saved)
      (writing : ∀ other handle payload, s'.saving other = .writing handle payload →
        s.saving other = .writing handle payload)
      (closing : ∀ other payload, s'.saving other = .closing payload →
        s.saving other = .closing payload) : Effect s bot s'
  | opened (payload : Payload python.floatRepr) (phase : s.saving bot = .opening payload) :
      Effect s bot
        { s.setPhase bot
            (.writing (s.files.openForWriting bot (tmpPath python (stores bot))).2 payload) with
          files := (s.files.openForWriting bot (tmpPath python (stores bot))).1 }
  | part (handle : ℕ) (payload : Payload python.floatRepr)
      (phase : s.saving bot = .writing handle payload) :
      Effect s bot { s with files := s.files.writePart bot handle }
  | all (handle : ℕ) (payload : Payload python.floatRepr)
      (phase : s.saving bot = .writing handle payload) :
      Effect s bot
        { s.setPhase bot (.closing payload) with
          files := s.files.writeAll bot handle (envelope python (stores bot) payload) }
  | replaced (payload : Payload python.floatRepr) (files : FileSystem String β Envelope)
      (phase : s.saving bot = .closing payload)
      (replace : s.files.replace (tmpPath python (stores bot)) (path python (stores bot)) =
        some files) :
      Effect s bot
        { files
          saving := Function.update s.saving bot .idle
          saved := Function.update s.saved bot (some payload)
          lastCall := Function.update s.lastCall bot (some (payload.snapshot, payload.savedAt)) }

variable {stores} {s : State python β} {bot : β}

theorem Effect.refl : Effect stores s bot s :=
  .none rfl rfl (fun _ _ _ h => h) (fun _ _ h => h)

theorem saving_of_setPhase {phase old : Phase python} {other : β} (hne : phase ≠ old)
    (h : (s.setPhase bot phase).saving other = old) : s.saving other = old := by
  simp only [State.setPhase, Function.update_apply] at h
  split at h
  · exact absurd h hne
  · exact h

theorem effect_idle : Effect stores s bot (s.setPhase bot .idle) :=
  .none rfl rfl (fun _ _ _ h => saving_of_setPhase (by simp) h)
    (fun _ _ h => saving_of_setPhase (by simp) h)

theorem effect_opening (payload : Payload python.floatRepr) :
    Effect stores s bot (s.setPhase bot (.opening payload)) :=
  .none rfl rfl (fun _ _ _ h => saving_of_setPhase (by simp) h)
    (fun _ _ h => saving_of_setPhase (by simp) h)

theorem effect_beginSave (now : Instant) (snapshot : PyValue) :
    Effect stores s bot (beginSave python s bot now snapshot) := by
  unfold beginSave
  split
  · exact effect_opening _
  · exact .none rfl rfl (fun _ _ _ h => h) (fun _ _ h => h)
  · exact .refl

theorem effect_finishSave {payload : Payload python.floatRepr}
    (h : s.saving bot = .closing payload) :
    Effect stores s bot (finishSave python stores s bot payload) := by
  unfold finishSave
  split
  · next files hreplace => exact .replaced payload files h hreplace
  · exact effect_idle

theorem step_effect (s : State python β) (x : Step β) :
    Effect stores s x.bot (step python stores s x) := by
  cases x with
  | save bot now snapshot =>
      simp only [step, Step.bot]
      split
      · exact effect_beginSave now snapshot
      · exact .refl
  | openTemporary bot =>
      simp only [step, Step.bot]
      split
      · next payload hphase => exact .opened payload hphase
      · exact .refl
  | writePart bot =>
      simp only [step, Step.bot]
      split
      · next handle payload hphase => exact .part handle payload hphase
      · exact .refl
  | writeAll bot =>
      simp only [step, Step.bot]
      split
      · next handle payload hphase => exact .all handle payload hphase
      · exact .refl
  | replace bot =>
      simp only [step, Step.bot]
      split
      · next payload hphase => exact effect_finishSave hphase
      · exact .refl
  | crash bot => exact effect_idle

end Effects

section Invariant

variable {β : Type} [DecidableEq β] {python : PythonText}

/-- An open file is no other bot's, whatever has become of its name since. -/
structure FilesApart (stores : β → AlgoStateStore) (s : State python β) : Prop where
  wellFormed : s.files.WellFormed
  allocated : ∀ bot handle payload, s.saving bot = .writing handle payload →
    handle < s.files.fresh
  named : ∀ bot handle payload, s.saving bot = .writing handle payload →
    ∀ name, s.files.inode name = some handle →
      name = tmpPath python (stores bot) ∨ name = path python (stores bot)

/-- The temporary file is as far as the save is, and the state file says what was saved last. -/
structure Tracks (stores : β → AlgoStateStore) (bot : β) (s : State python β) : Prop where
  writing : ∀ handle payload, s.saving bot = .writing handle payload →
    s.files.inode (tmpPath python (stores bot)) = some handle ∧
      s.files.writer handle = some bot
  closing : ∀ payload, s.saving bot = .closing payload →
    s.files.read (tmpPath python (stores bot)) =
      some (some (envelope python (stores bot) payload))
  stored : s.files.read (path python (stores bot)) =
    (s.saved bot).map fun payload => some (envelope python (stores bot) payload)

variable {stores : β → AlgoStateStore} {s s' : State python β} {bot other : β}

theorem setPhase_self (phase : Phase python) : (s.setPhase bot phase).saving bot = phase :=
  Function.update_self _ _ _

theorem setPhase_ne (phase : Phase python) (h : other ≠ bot) :
    (s.setPhase bot phase).saving other = s.saving other :=
  Function.update_of_ne h _ _

theorem FilesApart.opened (h : FilesApart stores s) (payload : Payload python.floatRepr) :
    FilesApart stores
      { s.setPhase bot
          (.writing (s.files.openForWriting bot (tmpPath python (stores bot))).2 payload) with
        files := (s.files.openForWriting bot (tmpPath python (stores bot))).1 } := by
  have hfresh := FileSystem.openForWriting_fresh h.wellFormed bot (tmpPath python (stores bot))
  refine ⟨FileSystem.wellFormed_openForWriting h.wellFormed _ _, ?_, ?_⟩
  · intro other handle payload' hphase
    by_cases hother : other = bot
    · subst hother
      cases (setPhase_self _).symm.trans hphase
      exact hfresh.2
    · exact Nat.lt_of_lt_of_le
        (h.allocated other handle payload' ((setPhase_ne _ hother).symm.trans hphase)) hfresh.1
  · intro other handle payload' hphase name hname
    simp only [FileSystem.openForWriting_inode] at hname
    by_cases hother : other = bot
    · subst hother
      cases (setPhase_self _).symm.trans hphase
      split at hname
      · next heq => exact .inl heq
      · next hne => exact absurd hname (FileSystem.handle_apart h.wellFormed _ hne)
    · have hold := (setPhase_ne _ hother).symm.trans hphase
      split at hname
      · next heq =>
          cases hname
          -- The file opened is an old one, and of this bot, or a new one, and of nobody yet.
          rcases FileSystem.openForWriting_handle s.files bot (tmpPath python (stores bot)) with
            hinode | hnew
          · rw [heq]
            exact h.named other _ payload' hold _ hinode
          · have hlt := h.allocated other _ payload' hold
            omega
      · exact h.named other handle payload' hold name hname

theorem FilesApart.replaced (h : FilesApart stores s) {files : FileSystem String β Envelope}
    (hreplace : s.files.replace (tmpPath python (stores bot)) (path python (stores bot)) =
      some files) (saved : β → Option (Payload python.floatRepr))
    (lastCall : β → Option (PyValue × Instant)) :
    FilesApart stores
      { files, saving := Function.update s.saving bot .idle, saved, lastCall } := by
  obtain ⟨i, hsource, -, -, hfresh, hinode⟩ := FileSystem.replace_some hreplace
  have hold {other : β} {handle : ℕ} {payload : Payload python.floatRepr}
      (hphase : (s.setPhase bot .idle).saving other = .writing handle payload) :
      s.saving other = .writing handle payload :=
    saving_of_setPhase (by simp) hphase
  refine ⟨FileSystem.wellFormed_replace h.wellFormed hreplace, ?_, ?_⟩
  · intro other handle payload hphase
    rw [hfresh]
    exact h.allocated other handle payload (hold hphase)
  · intro other handle payload hphase name hname
    rw [hinode] at hname
    split at hname
    · cases hname
    · split at hname
      · next heq =>
          cases hname
          rcases h.named other _ payload (hold hphase) _ hsource with htmp | hpath
          · exact .inr (heq.trans (path_eq_of_tmpPath_eq python htmp))
          · exact absurd hpath (tmpPath_ne_path python _ _)
      · exact h.named other handle payload (hold hphase) name hname

theorem FilesApart.effect (h : FilesApart stores s) (heffect : Effect stores s bot s') :
    FilesApart stores s' := by
  cases heffect with
  | none files saved writing closing =>
      refine ⟨files ▸ h.wellFormed, ?_, ?_⟩
      · intro other handle payload hphase
        rw [files]
        exact h.allocated other handle payload (writing other handle payload hphase)
      · intro other handle payload hphase
        rw [files]
        exact h.named other handle payload (writing other handle payload hphase)
  | opened payload phase => exact h.opened payload
  | part handle payload phase =>
      exact ⟨FileSystem.wellFormed_writePart h.wellFormed _ _, h.allocated, h.named⟩
  | all handle payload phase =>
      have hold {other : β} {handle' : ℕ} {payload' : Payload python.floatRepr}
          (hphase : (s.setPhase bot (.closing payload)).saving other =
            .writing handle' payload') :
          s.saving other = .writing handle' payload' :=
        saving_of_setPhase (by simp) hphase
      exact ⟨FileSystem.wellFormed_writeAll h.wellFormed _ _ _,
        fun other handle' payload' hphase => h.allocated other handle' payload' (hold hphase),
        fun other handle' payload' hphase => h.named other handle' payload' (hold hphase)⟩
  | replaced payload files phase replace => exact h.replaced replace _ _

omit [DecidableEq β] in
/-- The two names of a bot stand for the same files as before. -/
theorem Tracks.of_same (h : Tracks stores bot s)
    (hsame : ∀ name, name = tmpPath python (stores bot) ∨ name = path python (stores bot) →
      FileSystem.Same s.files s'.files name)
    (hwriting : ∀ handle payload, s'.saving bot = .writing handle payload →
      s.saving bot = .writing handle payload)
    (hclosing : ∀ payload, s'.saving bot = .closing payload → s.saving bot = .closing payload)
    (hsaved : s'.saved bot = s.saved bot) : Tracks stores bot s' := by
  have htmp := hsame _ (.inl rfl)
  refine ⟨?_, ?_, ?_⟩
  · intro handle payload hphase
    obtain ⟨hinode, hwriter⟩ := h.writing handle payload (hwriting handle payload hphase)
    exact ⟨htmp.inode.trans hinode, (htmp.writer handle hinode).trans hwriter⟩
  · intro payload hphase
    exact htmp.read.trans (h.closing payload (hclosing payload hphase))
  · rw [(hsame _ (.inr rfl)).read, hsaved]
    exact h.stored

theorem Tracks.own (hfiles : FilesApart stores s) (h : Tracks stores bot s)
    (heffect : Effect stores s bot s') : Tracks stores bot s' := by
  have hne := tmpPath_ne_path python (stores bot) (stores bot)
  cases heffect with
  | none files saved writing closing =>
      exact h.of_same (fun _ _ => .of_eq files) (writing bot) (closing bot) (by rw [saved])
  | opened payload phase =>
      refine ⟨?_, ?_, ?_⟩
      · intro handle payload' hphase
        cases (setPhase_self _).symm.trans hphase
        exact ⟨by rw [FileSystem.openForWriting_inode, if_pos rfl],
          FileSystem.openForWriting_writer _ _ _⟩
      · intro payload' hphase
        cases (setPhase_self _).symm.trans hphase
      · exact (FileSystem.same_openForWriting hfiles.wellFormed _ hne.symm).read.trans h.stored
  | part handle payload phase =>
      obtain ⟨hinode, hwriter⟩ := h.writing handle payload phase
      refine ⟨?_, ?_, ?_⟩
      · intro handle' payload' hphase
        cases phase.symm.trans hphase
        exact ⟨hinode, Function.update_self _ _ _⟩
      · intro payload' hphase
        cases phase.symm.trans hphase
      · have hapart := hfiles.wellFormed.apart hinode hne.symm
        exact (FileSystem.same_writePart _ hapart).read.trans h.stored
  | all handle payload phase =>
      obtain ⟨hinode, hwriter⟩ := h.writing handle payload phase
      refine ⟨?_, ?_, ?_⟩
      · intro handle' payload' hphase
        cases (setPhase_self _).symm.trans hphase
      · intro payload' hphase
        cases (setPhase_self _).symm.trans hphase
        exact FileSystem.read_writeAll _ hinode hwriter
      · have hapart := hfiles.wellFormed.apart hinode hne.symm
        exact (FileSystem.same_writeAll _ _ hapart).read.trans h.stored
  | replaced payload files phase replace =>
      refine ⟨?_, ?_, ?_⟩
      · intro handle payload' hphase
        cases (Function.update_self bot _ _).symm.trans hphase
      · intro payload' hphase
        cases (Function.update_self bot _ _).symm.trans hphase
      · show files.read _ = (Function.update s.saved bot (some payload) bot).map _
        rw [FileSystem.read_replace replace hne.symm, h.closing payload phase,
          Function.update_self]
        rfl

theorem names_apart {store store' : AlgoStateStore} (h : path python store' ≠ path python store)
    {name : String} (hname : name = tmpPath python store ∨ name = path python store) :
    name ≠ tmpPath python store' ∧ name ≠ path python store' := by
  rcases hname with rfl | rfl
  · exact ⟨fun heq => h (path_eq_of_tmpPath_eq python heq).symm, tmpPath_ne_path python _ _⟩
  · exact ⟨(tmpPath_ne_path python _ _).symm, h.symm⟩

omit [DecidableEq β] in
theorem FilesApart.apart (h : FilesApart stores s) {handle : ℕ}
    {payload : Payload python.floatRepr}
    (hown : path python (stores other) ≠ path python (stores bot)) {name : String}
    (hname : name = tmpPath python (stores bot) ∨ name = path python (stores bot))
    (hphase : s.saving other = .writing handle payload) : s.files.inode name ≠ some handle := by
  intro hinode
  obtain ⟨htmp, hpath⟩ := names_apart hown hname
  rcases h.named other handle payload hphase name hinode with heq | heq
  · exact htmp heq
  · exact hpath heq

theorem Tracks.others (hfiles : FilesApart stores s) (h : Tracks stores bot s) (hne : bot ≠ other)
    (hown : path python (stores other) ≠ path python (stores bot))
    (heffect : Effect stores s other s') : Tracks stores bot s' := by
  cases heffect with
  | none files saved writing closing =>
      exact h.of_same (fun _ _ => .of_eq files) (writing bot) (closing bot) (by rw [saved])
  | opened payload phase =>
      refine h.of_same ?_ ?_ ?_ rfl
      · intro name hname
        exact FileSystem.same_openForWriting hfiles.wellFormed _ (names_apart hown hname).1
      · intro handle payload' hphase
        exact (setPhase_ne _ hne).symm.trans hphase
      · intro payload' hphase
        exact (setPhase_ne _ hne).symm.trans hphase
  | part handle payload phase =>
      refine h.of_same ?_ (fun _ _ hphase => hphase) (fun _ hphase => hphase) rfl
      intro name hname
      exact FileSystem.same_writePart _ (hfiles.apart hown hname phase)
  | all handle payload phase =>
      refine h.of_same ?_ ?_ ?_ rfl
      · intro name hname
        exact FileSystem.same_writeAll _ _ (hfiles.apart hown hname phase)
      · intro handle' payload' hphase
        exact (setPhase_ne _ hne).symm.trans hphase
      · intro payload' hphase
        exact (setPhase_ne _ hne).symm.trans hphase
  | replaced payload files phase replace =>
      refine h.of_same ?_ ?_ ?_ ?_
      · intro name hname
        obtain ⟨htmp, hpath⟩ := names_apart hown hname
        exact FileSystem.same_replace replace htmp hpath
      · intro handle payload' hphase
        exact (setPhase_ne _ hne).symm.trans hphase
      · intro payload' hphase
        exact (setPhase_ne _ hne).symm.trans hphase
      · exact Function.update_of_ne hne _ _

theorem runSteps_tracks (hown : ∀ other, other ≠ bot →
    path python (stores other) ≠ path python (stores bot)) (steps : List (Step β)) :
    FilesApart stores (runSteps python stores steps) ∧
      Tracks stores bot (runSteps python stores steps) := by
  refine List.foldlRecOn (motive := fun s => FilesApart stores s ∧ Tracks stores bot s) steps
    (step python stores) ?_ ?_
  · refine ⟨⟨FileSystem.wellFormed_empty, ?_, ?_⟩, ?_, ?_, rfl⟩ <;> simp
  · rintro s ⟨hfiles, htracks⟩ x -
    have heffect : Effect stores s x.bot (step python stores s x) := step_effect s x
    refine ⟨hfiles.effect heffect, ?_⟩
    by_cases hbot : x.bot = bot
    · rw [hbot] at heffect
      exact htracks.own hfiles heffect
    · exact htracks.others hfiles (Ne.symm hbot) (hown _ hbot) heffect

end Invariant

section Restores

variable {β : Type} {python : PythonText}

def isDict : PyValue → Bool
  | .dict _ => true
  | _ => false

/-- A restarted bot has the memory that it saved last, unless that is too old. -/
def Restores (store : AlgoStateStore) (saved : Option (Payload python.floatRepr))
    (files : FileSystem String β Envelope) (now : Instant) : Prop :=
  match saved with
  | none => load python store files now = .ok none
  | some payload =>
      isDict payload.snapshot → ¬isStale store payload.savedAt now →
        load python store files now =
            .ok (some (loads payload.json, restoreContext store payload.savedAt now)) ∧
          (isJson payload.snapshot → PythonJson.eq payload.snapshot (loads payload.json))

theorem length_loads {payload : Payload python.floatRepr} (h : isDict payload.snapshot) :
    ∃ count, (loads payload.json).length = some count := by
  obtain ⟨snapshot, savedAt, json, hdumped⟩ := payload
  cases snapshot with
  | dict entries =>
      obtain ⟨texts, -, rfl⟩ := Option.map_eq_some_iff.mp hdumped
      exact ⟨_, rfl⟩
  | _ => cases h

/-- What is read of a memory of primitives is the memory. -/
theorem loads_payload {payload : Payload python.floatRepr} (h : isJson payload.snapshot) :
    PythonJson.eq payload.snapshot (loads payload.json) := by
  obtain ⟨text, htext, hloads⟩ := loads_dumps payload.snapshot h
  cases htext.symm.trans payload.dumped
  rw [hloads]
  exact eq_self payload.snapshot h

theorem load_none {store : AlgoStateStore} {files : FileSystem String β Envelope}
    (h : files.read (path python store) = none) (now : Instant) :
    load python store files now = .ok none := by
  rw [load, h]

theorem load_envelope {store : AlgoStateStore} {files : FileSystem String β Envelope}
    {payload : Payload python.floatRepr} {now : Instant}
    (h : files.read (path python store) = some (some (envelope python store payload)))
    (hdict : isDict payload.snapshot) (hfresh : ¬isStale store payload.savedAt now) :
    load python store files now =
      .ok (some (loads payload.json, restoreContext store payload.savedAt now)) := by
  obtain ⟨count, hcount⟩ := length_loads hdict
  simp [load, h, envelope, hfresh, hcount]

theorem restores_of_stored {store : AlgoStateStore} {files : FileSystem String β Envelope}
    {saved : Option (Payload python.floatRepr)}
    (h : files.read (path python store) =
      saved.map fun payload => some (envelope python store payload)) (now : Instant) :
    Restores store saved files now := by
  cases saved with
  | none => exact load_none h now
  | some payload =>
      intro hdict hfresh
      exact ⟨load_envelope h hdict hfresh, loads_payload⟩

/-- What a load returns it has read from a fresh file of the bot. -/
theorem exists_envelope_of_load {store : AlgoStateStore} {files : FileSystem String β Envelope}
    {now : Instant} {value : PyValue} {context : RestoreContext}
    (h : load python store files now = .ok (some (value, context))) :
    ∃ text, files.read (path python store) = some (some text) ∧ text.profile = store.profile ∧
      text.symbol = store.symbol ∧ ¬isStale store text.savedAtUtc now ∧
      value = loads text.snapshot ∧ context = restoreContext store text.savedAtUtc now := by
  unfold load at h
  split at h
  · cases h
  · exact absurd h (handleCorrupt_ne store _ _)
  · next text hread =>
      split at h
      · exact absurd h (handleCorrupt_ne store _ _)
      · split at h
        · cases h
        · next hsame =>
            obtain ⟨hprofile, hsymbol⟩ := not_or.mp hsame
            split at h
            · exact absurd h (handleStale_ne store _ _ _)
            · next hfresh =>
                split at h
                · cases h
                · cases h
                  exact ⟨text, hread, not_not.mp hprofile, not_not.mp hsymbol, hfresh, rfl, rfl⟩

/-- However the saves of the bots of a directory are interleaved and wherever they crash, a bot
whose state file is its own finds in it what it saved last. -/
theorem restart_restores [DecidableEq β] (stores : β → AlgoStateStore) (bot : β)
    (hown : ∀ other, other ≠ bot →
      path python (stores other) ≠ path python (stores bot))
    (steps : List (Step β)) (now : Instant) :
    Restores (stores bot) ((runSteps python stores steps).saved bot)
      (runSteps python stores steps).files now :=
  restores_of_stored (runSteps_tracks hown steps).2.stored now

def ascii : PythonText where
  isalnum := Char.isAlphanum
  lower text := String.ofList (text.toList.map Char.toLower)
  floatRepr _ := "0.5"

def saveSteps (bot : Bool) (now : Instant) (snapshot : PyValue) : List (Step Bool) :=
  [.save bot now snapshot, .openTemporary bot, .writeAll bot, .replace bot]

def trendBots (symbol : String) : Bool → AlgoStateStore
  | true => { config := {}, profile := "trend", symbol := "BTC/USD", weekendAware := false }
  | false => { config := {}, profile := "trend", symbol, weekendAware := false }

/-- One bot crashes with its second memory half written, while another saves its own. -/
def crashSteps : List (Step Bool) :=
  saveSteps true 0 (.dict [(.text "swings", .int 2)]) ++
    [.save true 60000000 (.dict [(.text "swings", .int 3)]), .openTemporary true,
      .writePart true] ++
    saveSteps false 60000000 (.dict [(.text "swings", .int 5)]) ++ [.crash true]

theorem restart_restores_first :
    Restores (trendBots "ETH/USD" true)
      ((runSteps ascii (trendBots "ETH/USD") crashSteps).saved true)
      (runSteps ascii (trendBots "ETH/USD") crashSteps).files 120000000 := by
  refine restart_restores (trendBots "ETH/USD") true ?_ _ _
  intro other hother
  cases other with
  | true => exact absurd rfl hother
  | false => decide

/-- What a restart restores if every completed call of `save` counts. -/
def RemembersLastCall (python : PythonText) (store : AlgoStateStore)
    (lastCall : Option (PyValue × Instant)) (files : FileSystem String β Envelope)
    (now : Instant) : Prop :=
  match lastCall with
  | none => load python store files now = .ok none
  | some call =>
      ¬isStale store call.2 now →
        ∃ value context, load python store files now = .ok (some (value, context)) ∧
          PythonJson.eq call.1 value

/-- The pre-flight accepts each snapshot, and the first bot does not get back its last one. -/
def Forgets (symbol : String) (steps : List (Step Bool)) : Prop :=
  (∀ bot now stateSnapshot, Step.save bot now stateSnapshot ∈ steps →
      validateStateSnapshotSerializable ascii
        { name := "trend", usesStatePersistence := true, stateSnapshot } = .ok ()) ∧
    ¬RemembersLastCall ascii (trendBots symbol true)
      ((runSteps ascii (trendBots symbol) steps).lastCall true)
      (runSteps ascii (trendBots symbol) steps).files 0

theorem forgets_of_load {symbol : String} {steps : List (Step Bool)} {snapshot : PyValue}
    {loaded : Option (PyValue × RestoreContext)}
    (haccepted : ∀ bot now stateSnapshot, Step.save bot now stateSnapshot ∈ steps →
      (dumps ascii.floatRepr stateSnapshot).isSome)
    (hcall : (runSteps ascii (trendBots symbol) steps).lastCall true = some (snapshot, 0))
    (hload : load ascii (trendBots symbol true) (runSteps ascii (trendBots symbol) steps).files 0 =
      .ok loaded)
    (hne : ∀ value context, loaded = some (value, context) →
      ¬PythonJson.eq snapshot value) : Forgets symbol steps := by
  refine ⟨?_, ?_⟩
  · intro bot now stateSnapshot hsave
    exact (validate_eq_ok_iff _ _).mpr fun _ => haccepted bot now stateSnapshot hsave
  intro h
  unfold RemembersLastCall at h
  rw [hcall] at h
  obtain ⟨value, context, hvalue, heq⟩ := h (by simp [isStale, tradingDaysBetween, trendBots])
  cases hload.symm.trans hvalue
  exact hne value context rfl heq

theorem path_collides :
    path ascii (trendBots "BTC_USD" false) = path ascii (trendBots "BTC_USD" true) := by
  simp [path, trendBots, sanitize, ascii]

def collidingSteps : List (Step Bool) :=
  saveSteps true 0 (.dict [(.text "swings", .int 2)]) ++
    saveSteps false 0 (.dict [(.text "swings", .int 5)])

theorem load_collides :
    (runSteps ascii (trendBots "BTC_USD") collidingSteps).lastCall true =
        some (.dict [(.text "swings", .int 2)], 0) ∧
      load ascii (trendBots "BTC_USD" true)
        (runSteps ascii (trendBots "BTC_USD") collidingSteps).files 0 = .ok none := by
  have hne := (tmpPath_ne_path ascii (trendBots "BTC_USD" true) (trendBots "BTC_USD" true)).symm
  have htmp : tmpPath ascii (trendBots "BTC_USD" false) =
      tmpPath ascii (trendBots "BTC_USD" true) := by
    rw [tmpPath, path_collides, tmpPath]
  simp [load, runSteps, collidingSteps, saveSteps, step, beginSave, serialize, PyValue.truthy,
    dumps, dumpsEntries, PyKey.dumps, State.setPhase, FileSystem.openForWriting,
    FileSystem.writeAll, finishSave, FileSystem.replace, path_collides, htmp, hne,
    FileSystem.read, envelope]
  simp [trendBots]

/-- A memory that has become empty, one saved under a name that another bot has as well, and one
with a tuple in it: none of them comes back. -/
theorem memories_lost :
    Forgets "ETH/USD"
        (saveSteps true 0 (.dict [(.text "swings", .int 2)]) ++ [.save true 0 (.dict [])]) ∧
      Forgets "BTC_USD" collidingSteps ∧
      Forgets "ETH/USD"
        (saveSteps true 0 (.dict [(.text "levels", .tuple [.int 1, .int 2])])) := by
  refine ⟨?_, ?_, ?_⟩
  · refine forgets_of_load ?_ rfl rfl ?_
    · intro bot now stateSnapshot hsave
      simp only [saveSteps, List.cons_append, List.nil_append, List.mem_cons, Step.save.injEq,
        reduceCtorEq, List.not_mem_nil, or_false, false_or] at hsave
      rcases hsave with ⟨-, -, rfl⟩ | ⟨-, -, rfl⟩ <;> rfl
    · rintro value context ⟨⟩
      decide
  · refine forgets_of_load ?_ load_collides.1 load_collides.2 ?_
    · simp [collidingSteps, saveSteps, dumps, dumpsEntries, PyKey.dumps]
    · rintro value context ⟨⟩
  · refine forgets_of_load ?_ rfl rfl ?_
    · simp [saveSteps, dumps, dumpsEntries, dumpsItems, PyKey.dumps]
    · rintro value context ⟨⟩
      decide

end Restores

section Memories

variable {β : Type} {python : PythonText}

/-- The memory that a bot is saving. -/
def Phase.payload? : Phase python → Option (Payload python.floatRepr)
  | .idle => none
  | .opening payload => some payload
  | .writing _ payload => some payload
  | .closing payload => some payload

/-- Among these steps the bot was told to save this memory. -/
def Told (steps : List (Step β)) (bot : β) (payload : Payload python.floatRepr) : Prop :=
  Step.save bot payload.savedAt payload.snapshot ∈ steps

/-- What a bot is saving it was told to save, and every complete file in the directory is the
memory of a bot that was told to save it. -/
structure Owned (stores : β → AlgoStateStore) (steps : List (Step β)) (s : State python β) :
    Prop where
  saving : ∀ bot, ∀ payload ∈ (s.saving bot).payload?, Told steps bot payload
  files : ∀ i, ∀ text ∈ s.files.content i, ∃ (bot : β) (payload : Payload python.floatRepr),
    Told steps bot payload ∧ text = envelope python (stores bot) payload

variable {stores : β → AlgoStateStore} {steps : List (Step β)} {s : State python β} {bot : β}

theorem Owned.more (h : Owned stores steps s) (x : Step β) : Owned stores (steps ++ [x]) s := by
  refine ⟨?_, ?_⟩
  · intro bot payload hpayload
    exact List.mem_append_left _ (h.saving bot payload hpayload)
  · intro i text htext
    obtain ⟨bot, payload, htold, heq⟩ := h.files i text htext
    exact ⟨bot, payload, List.mem_append_left _ htold, heq⟩

theorem told_of_serialize {now : Instant} {snapshot : PyValue} {payload : Payload python.floatRepr}
    (h : serialize python snapshot now = .ok (some payload)) :
    Told (steps ++ [.save bot now snapshot]) bot payload := by
  unfold serialize at h
  split at h
  · cases h
  · split at h
    · cases h
      exact List.mem_append_right _ (List.mem_singleton_self _)
    · cases h

theorem Owned.withFiles (h : Owned stores steps s) {files : FileSystem String β Envelope}
    (hfiles : ∀ i, ∀ text ∈ files.content i, s.files.content i = some text ∨
      ∃ (bot : β) (payload : Payload python.floatRepr),
        Told steps bot payload ∧ text = envelope python (stores bot) payload) :
    Owned stores steps { s with files } := by
  refine ⟨h.saving, fun i text htext => ?_⟩
  rcases hfiles i text htext with hold | hnew
  · exact h.files i text hold
  · exact hnew

variable [DecidableEq β]

theorem Owned.setPhase (h : Owned stores steps s) {phase : Phase python}
    (hphase : ∀ payload ∈ phase.payload?, Told steps bot payload) :
    Owned stores steps (s.setPhase bot phase) := by
  refine ⟨?_, h.files⟩
  intro other payload hpayload
  by_cases hother : other = bot
  · subst hother
    rw [setPhase_self] at hpayload
    exact hphase payload hpayload
  · rw [setPhase_ne phase hother] at hpayload
    exact h.saving other payload hpayload

theorem Owned.beginSave (h : Owned stores steps s) (now : Instant) (snapshot : PyValue) :
    Owned stores (steps ++ [.save bot now snapshot]) (beginSave python s bot now snapshot) := by
  unfold AlgoState.beginSave
  split
  · next payload hserialize =>
      refine (h.more _).setPhase ?_
      rintro _ ⟨⟩
      exact told_of_serialize hserialize
  · exact ⟨(h.more _).saving, (h.more _).files⟩
  · exact h.more _

theorem Owned.finishSave (h : Owned stores steps s) (payload : Payload python.floatRepr) :
    Owned stores steps (finishSave python stores s bot payload) := by
  have hidle : Owned stores steps (s.setPhase bot .idle) := h.setPhase (by rintro _ ⟨⟩)
  unfold AlgoState.finishSave
  split
  · next files hreplace =>
      obtain ⟨-, -, hcontent, -⟩ := FileSystem.replace_some hreplace
      refine ⟨hidle.saving, fun i text htext => h.files i text ?_⟩
      rw [← hcontent]
      exact htext
  · exact hidle

/-- A step tells at most the bot that is to save, and no file is written but what it was told. -/
theorem Owned.step (h : Owned stores steps s) (x : Step β) :
    Owned stores (steps ++ [x]) (step python stores s x) := by
  cases x with
  | save bot now snapshot =>
      simp only [AlgoState.step]
      split
      · exact h.beginSave now snapshot
      · exact h.more _
  | openTemporary bot =>
      simp only [AlgoState.step]
      split
      · next payload hphase =>
          have htold : Told steps bot payload := h.saving bot payload (by rw [hphase]; rfl)
          have hwriting : Owned stores steps (s.setPhase bot (.writing
              (s.files.openForWriting bot (tmpPath python (stores bot))).2 payload)) :=
            h.setPhase (by
              rintro _ ⟨⟩
              exact htold)
          exact (hwriting.withFiles fun i text htext =>
            .inl (FileSystem.content_of_openForWriting htext)).more _
      · exact h.more _
  | writePart bot =>
      simp only [AlgoState.step]
      split
      · exact (h.withFiles fun i text htext =>
          .inl (FileSystem.content_of_writePart htext)).more _
      · exact h.more _
  | writeAll bot =>
      simp only [AlgoState.step]
      split
      · next handle payload hphase =>
          have htold : Told steps bot payload := h.saving bot payload (by rw [hphase]; rfl)
          have hclosing : Owned stores steps (s.setPhase bot (.closing payload)) :=
            h.setPhase (by
              rintro _ ⟨⟩
              exact htold)
          refine (hclosing.withFiles fun i text htext => ?_).more _
          rcases FileSystem.content_of_writeAll htext with hold | hnew
          · exact .inl hold
          · exact .inr ⟨bot, payload, htold, hnew⟩
      · exact h.more _
  | replace bot =>
      simp only [AlgoState.step]
      split
      · next payload _ => exact Owned.more (h.finishSave payload) _
      · exact h.more _
  | crash bot => exact Owned.more (h.setPhase (by rintro _ ⟨⟩)) _

theorem runSteps_owned (stores : β → AlgoStateStore) (steps : List (Step β)) :
    Owned stores steps (runSteps python stores steps) := by
  induction steps using List.reverseRecOn with
  | nil => exact ⟨by rintro bot _ ⟨⟩, by rintro i _ ⟨⟩⟩
  | append_singleton steps x ih =>
      rw [runSteps, List.foldl_append]
      exact ih.step x

def takenTurns : List (Step Bool) :=
  collidingSteps ++ saveSteps true 60000000 (.dict [(.text "swings", .int 3)])

theorem load_takenTurns :
    load ascii (trendBots "BTC_USD" true)
        (runSteps ascii (trendBots "BTC_USD") takenTurns).files 120000000 =
      .ok (some (.dict [(.text "swings", .int 3)],
        restoreContext (trendBots "BTC_USD" true) 60000000 120000000)) := by
  have hne := (tmpPath_ne_path ascii (trendBots "BTC_USD" true) (trendBots "BTC_USD" true)).symm
  have htmp : tmpPath ascii (trendBots "BTC_USD" false) =
      tmpPath ascii (trendBots "BTC_USD" true) := by
    rw [tmpPath, path_collides, tmpPath]
  simp [load, runSteps, takenTurns, collidingSteps, saveSteps, step, beginSave, serialize,
    PyValue.truthy, dumps, dumpsEntries, PyKey.dumps, State.setPhase, FileSystem.openForWriting,
    FileSystem.writeAll, finishSave, FileSystem.replace, path_collides, htmp, hne,
    FileSystem.read, envelope]
  simp only [trendBots]
  rfl

end Memories

end Finiex.AlgoState
