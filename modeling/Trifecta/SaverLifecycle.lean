/-
Savers over sequences of calls: which of them run, which files they hold, and
which devices point to them.
-/
import Trifecta.SaveSession
import Trifecta.Library.Ledger

namespace Trifecta

open Transitions

/-- Any number of savers and devices, each known by its number: the savers,
their `file` members with the files opened so far, and the `save_context`
members of the devices. -/
structure SaverWorld where
  savers : Nat → FsSaveDevice
  files : Ledger Nat
  saveContexts : Nat → Option Nat

/-- Before any call, with every saver zeroed. -/
def zeroSavers : SaverWorld where
  savers _ :=
    { packetsToSave := .init (fun _ => .zero 185) fsMaxPacketQueueLength_pos
      running := .idle }
  files := { held := fun _ => none, acquired := 0, released := fun _ => 0 }
  saveContexts _ := none

/-- A saver with its ring emptied by `FS_RINGBUFFER_INIT`. -/
def FsSaveDevice.reset (saver : FsSaveDevice) (status : FsRunStatus) : FsSaveDevice where
  packetsToSave := .init saver.packetsToSave.buffer fsMaxPacketQueueLength_pos
  running := status

def SaverWorld.setSaver (world : SaverWorld) (saver : Nat) (state : FsSaveDevice) : SaverWorld :=
  { world with savers := Function.update world.savers saver state }

def SaverWorld.setSaveContext (world : SaverWorld) (device : Nat) (context : Option Nat) :
    SaverWorld :=
  { world with saveContexts := Function.update world.saveContexts device context }

/-- `fclose` of a saver's file, if it has one, and the member cleared. -/
def SaverWorld.closeFile (world : SaverWorld) (saver : Nat) : SaverWorld :=
  { world with files := world.files.release saver }

/-- `fs_save_init`, with `none` for a null pointer. -/
def fsSaveInit (world : SaverWorld) (saver : Option Nat) : Int × SaverWorld :=
  match saver with
  | none => (-1, world)
  | some saver =>
      (0, (world.closeFile saver).setSaver saver ((world.savers saver).reset .idle))

/-- `fs_save_destroy`. -/
def fsSaveDestroy (world : SaverWorld) (saver : Option Nat) : SaverWorld :=
  match saver with
  | none => world
  | some saver => world.closeFile saver

/-- The device points to a saver that has a file. -/
def alreadySaving (world : SaverWorld) (device : Nat) : Bool :=
  (world.saveContexts device).any fun saver => (world.files.held saver).isSome

/-- `fs_save_begin_device`, with the outcomes of `fopen` and
`fs_thread_start`. -/
def fsSaveBeginDevice (world : SaverWorld) (saver device : Option Nat)
    (fileOpened threadStarted : Bool) : Int × SaverWorld :=
  match saver, device with
  | some saver, some device =>
      if alreadySaving world device then (0, world)
      else if fileOpened then
        let begun := (({ world with files := world.files.acquire saver }).setSaveContext device
          (some saver)).setSaver saver ((world.savers saver).reset .running)
        if threadStarted then (0, begun)
        else
          (-4, ((begun.closeFile saver).setSaveContext device none).setSaver saver
            ((world.savers saver).reset .idle))
      else (-3, { world with files := world.files.forget saver })
  | _, _ => (-1, world)

/-- `fs_save_end_device`. -/
def fsSaveEndDevice (world : SaverWorld) (saver device : Option Nat) : Int × SaverWorld :=
  match saver, device with
  | some saver, some device =>
      (0, ((world.setSaver saver { world.savers saver with running := .idle }).setSaveContext
        device none).closeFile saver)
  | _, _ => (-1, world)

inductive SaverCall
  | init (saver : Option Nat)
  | beginDevice (saver device : Option Nat) (fileOpened threadStarted : Bool)
  | endDevice (saver device : Option Nat)
  | destroy (saver : Option Nat)
deriving DecidableEq, Repr

def saverCall (world : SaverWorld) : SaverCall → SaverWorld
  | .init saver => (fsSaveInit world saver).2
  | .beginDevice saver device fileOpened threadStarted =>
      (fsSaveBeginDevice world saver device fileOpened threadStarted).2
  | .endDevice saver device => (fsSaveEndDevice world saver device).2
  | .destroy saver => fsSaveDestroy world saver

def SaverWorld.HasOpenFile (world : SaverWorld) (saver : Nat) : Prop :=
  ∃ file, world.files.held saver = some file ∧ world.files.released file = 0

/-- Running savers have open files, devices point to running savers with open
files, and every file opened is with one saver or has been closed once. -/
structure SaverLifecycle (world : SaverWorld) : Prop where
  running : ∀ saver, (world.savers saver).running = .running → world.HasOpenFile saver
  context : ∀ device saver, world.saveContexts device = some saver →
    (world.savers saver).running = .running ∧ world.HasOpenFile saver
  files : world.files.Accounted

/-- A saver is neither initialized while a device points to it nor ended while
another one does, destroyed only when it does not run, and given a file only
when it has none. -/
def Orderly (world : SaverWorld) : SaverCall → Prop
  | .init (some saver) => ∀ device, world.saveContexts device ≠ some saver
  | .beginDevice (some saver) (some device) _ _ =>
      alreadySaving world device = true ∨ world.files.held saver = none
  | .endDevice (some saver) (some device) =>
      ∀ other, other ≠ device → world.saveContexts other ≠ some saver
  | .destroy (some saver) => (world.savers saver).running ≠ .running
  | _ => True

section Calls

variable {world : SaverWorld}

/-- A saver begun is one of which a recording starts. -/
theorem fsSaveBeginDevice_begun {device : Nat} (hfree : alreadySaving world device = false)
    (saver : Nat) :
    (fsSaveBeginDevice world (some saver) (some device) true true).2.savers saver =
      (saveBegun (world.savers saver).packetsToSave.buffer).saver := by
  simp [fsSaveBeginDevice, hfree, SaverWorld.setSaver, FsSaveDevice.reset, saveBegun]

/-- The four steps that end a recording leave what the call as a whole leaves. -/
theorem fsSaveEndDevice_ended {session : SaveSession} (hcalled : session.ending = .notCalled)
    (hfile : session.file = true) {saver : Nat} (hsaver : session.saver = world.savers saver)
    (device : Nat) :
    (fsSaveEndDevice world (some saver) (some device)).2.savers saver =
        (endStep^[4] session).saver ∧
      (fsSaveEndDevice world (some saver) (some device)).2.files.held saver = none ∧
      (fsSaveEndDevice world (some saver) (some device)).2.saveContexts device = none ∧
      (endStep^[4] session).file = false ∧ (endStep^[4] session).saveContext = false := by
  simp [fsSaveEndDevice, SaverWorld.setSaver, SaverWorld.setSaveContext, SaverWorld.closeFile,
    Function.iterate_succ, endStep, hcalled, hfile, hsaver]

/-- As long as no file is closed under its holder, having one is having it
open. -/
theorem saverLifecycle_iff (hsound : world.files.Sound) :
    SaverLifecycle world ↔
      (∀ saver, (world.savers saver).running = .running → world.files.held saver ≠ none) ∧
        (∀ device saver, world.saveContexts device = some saver →
          (world.savers saver).running = .running) ∧ world.files.Accounted := by
  have hopen : ∀ saver, world.HasOpenFile saver ↔ world.files.held saver ≠ none := by
    intro saver
    rw [SaverWorld.HasOpenFile, Option.ne_none_iff_exists']
    exact exists_congr fun file =>
      and_iff_left_of_imp fun hheld => (hsound.held saver file hheld).2
  constructor
  · rintro ⟨hrunning, hcontext, hfiles⟩
    exact ⟨fun saver hsaver => (hopen saver).1 (hrunning saver hsaver),
      fun device saver hdevice => (hcontext device saver hdevice).1, hfiles⟩
  · rintro ⟨hrunning, hcontext, hfiles⟩
    refine ⟨fun saver hsaver => (hopen saver).2 (hrunning saver hsaver), ?_, hfiles⟩
    intro device saver hdevice
    have hsaver := hcontext device saver hdevice
    exact ⟨hsaver, (hopen saver).2 (hrunning saver hsaver)⟩

theorem sound_saverCall (hsound : world.files.Sound) (hlife : SaverLifecycle world)
    (call : SaverCall) : (saverCall world call).files.Sound := by
  have hrelease : ∀ saver, (world.files.release saver).Sound := fun saver =>
    hsound.release fun other file hsaver hother => hsound.unique hlife.files hother hsaver
  cases call with
  | init saver =>
      cases saver with
      | none => exact hsound
      | some saver => exact hrelease saver
  | destroy saver =>
      cases saver with
      | none => exact hsound
      | some saver => exact hrelease saver
  | endDevice saver device =>
      cases saver with
      | none => exact hsound
      | some saver =>
          cases device with
          | none => exact hsound
          | some device => exact hrelease saver
  | beginDevice saver device fileOpened threadStarted =>
      cases saver with
      | none => exact hsound
      | some saver =>
          cases device with
          | none => exact hsound
          | some device =>
              simp only [saverCall, fsSaveBeginDevice]
              split_ifs
              · exact hsound
              · exact hsound.acquire
              · exact hsound.release_acquire
              · exact hsound.forget

theorem lifecycle_init_iff (hsound : world.files.Sound) (hlife : SaverLifecycle world)
    (saver : Nat) :
    SaverLifecycle (saverCall world (.init (some saver))) ↔
      Orderly world (.init (some saver)) := by
  have hnext := sound_saverCall hsound hlife (.init (some saver))
  rw [saverLifecycle_iff hnext]
  obtain ⟨hrunning, hcontext, hfiles⟩ := (saverLifecycle_iff hsound).1 hlife
  simp only [saverCall, fsSaveInit, SaverWorld.setSaver, SaverWorld.closeFile,
    Function.update_apply, Ledger.held_release, Orderly]
  constructor
  · rintro ⟨_, hafter, _⟩ device hdevice
    have hsaver := hafter device saver hdevice
    rw [if_pos rfl] at hsaver
    exact absurd hsaver (by simp [FsSaveDevice.reset])
  · intro hnobody
    refine ⟨?_, ?_, hfiles.release hsound⟩
    · intro other hother
      split_ifs at hother ⊢ with hsame
      · exact absurd hother (by simp [FsSaveDevice.reset])
      · exact hrunning other hother
    · intro device other hdevice
      have hne : other ≠ saver := by
        rintro rfl
        exact hnobody device hdevice
      rw [if_neg hne]
      exact hcontext device other hdevice

theorem lifecycle_destroy_iff (hsound : world.files.Sound) (hlife : SaverLifecycle world)
    (saver : Nat) :
    SaverLifecycle (saverCall world (.destroy (some saver))) ↔
      Orderly world (.destroy (some saver)) := by
  have hnext := sound_saverCall hsound hlife (.destroy (some saver))
  rw [saverLifecycle_iff hnext]
  obtain ⟨hrunning, hcontext, hfiles⟩ := (saverLifecycle_iff hsound).1 hlife
  simp only [saverCall, fsSaveDestroy, SaverWorld.closeFile, Ledger.held_release, Orderly]
  constructor
  · rintro ⟨hafter, _, _⟩ hsaver
    exact hafter saver hsaver (if_pos rfl)
  · intro hstopped
    refine ⟨?_, hcontext, hfiles.release hsound⟩
    intro other hother
    have hne : other ≠ saver := by
      rintro rfl
      exact hstopped hother
    rw [if_neg hne]
    exact hrunning other hother

theorem lifecycle_endDevice_iff (hsound : world.files.Sound) (hlife : SaverLifecycle world)
    (saver device : Nat) :
    SaverLifecycle (saverCall world (.endDevice (some saver) (some device))) ↔
      Orderly world (.endDevice (some saver) (some device)) := by
  have hnext := sound_saverCall hsound hlife (.endDevice (some saver) (some device))
  rw [saverLifecycle_iff hnext]
  obtain ⟨hrunning, hcontext, hfiles⟩ := (saverLifecycle_iff hsound).1 hlife
  simp only [saverCall, fsSaveEndDevice, SaverWorld.setSaver, SaverWorld.setSaveContext,
    SaverWorld.closeFile, Function.update_apply, Ledger.held_release, Orderly]
  constructor
  · rintro ⟨_, hafter, _⟩ other hother hdevice
    have hsaver := hafter other saver (by rw [if_neg hother, hdevice])
    rw [if_pos rfl] at hsaver
    exact absurd hsaver (by simp)
  · intro hothers
    refine ⟨?_, ?_, hfiles.release hsound⟩
    · intro other hother
      split_ifs at hother ⊢ with hsame
      exact hrunning other hother
    · intro other found hfound
      split_ifs at hfound with hdevice
      have hne : found ≠ saver := by
        rintro rfl
        exact hothers other hdevice hfound
      rw [if_neg hne]
      exact hcontext other found hfound

/-- Without a file a saver is pointed to by no device. -/
theorem not_saveContext_of_held_none (hlife : SaverLifecycle world) {saver : Nat}
    (hnone : world.files.held saver = none) (device : Nat) :
    world.saveContexts device ≠ some saver := by
  intro hdevice
  obtain ⟨_, file, hfile, _⟩ := hlife.context device saver hdevice
  rw [hnone] at hfile
  exact absurd hfile (by simp)

/-- Beginning keeps the lifecycle unless a file is lost. -/
theorem lifecycle_begun_iff (hsound : world.files.Sound) (hlife : SaverLifecycle world)
    (saver device : Nat) :
    SaverLifecycle ((({ world with files := world.files.acquire saver }).setSaveContext device
        (some saver)).setSaver saver ((world.savers saver).reset .running)) ↔
      world.files.held saver = none := by
  obtain ⟨hrunning, hcontext, hfiles⟩ := (saverLifecycle_iff hsound).1 hlife
  rw [saverLifecycle_iff hsound.acquire]
  constructor
  · rintro ⟨_, _, hafter⟩
    exact (Ledger.accounted_acquire_iff hsound hfiles saver).1 hafter
  · intro hnone
    refine ⟨?_, ?_, (Ledger.accounted_acquire_iff hsound hfiles saver).2 hnone⟩
    · intro other hother
      simp only [SaverWorld.setSaver, SaverWorld.setSaveContext, Function.update_apply,
        Ledger.held_acquire] at hother ⊢
      split_ifs at hother ⊢ with hsame
      · simp
      · exact hrunning other hother
    · intro other found hfound
      simp only [SaverWorld.setSaver, SaverWorld.setSaveContext, Function.update_apply]
        at hfound ⊢
      by_cases hsame : found = saver
      · rw [if_pos hsame]
        rfl
      · rw [if_neg hsame]
        split_ifs at hfound
        · exact absurd (Option.some.inj hfound).symm hsame
        · exact hcontext other found hfound

/-- So does beginning with a thread that does not start. -/
theorem lifecycle_notStarted_iff (hsound : world.files.Sound) (hlife : SaverLifecycle world)
    (saver device : Nat) :
    SaverLifecycle
        ((((((({ world with files := world.files.acquire saver }).setSaveContext device
          (some saver)).setSaver saver ((world.savers saver).reset .running)).closeFile
            saver).setSaveContext device none).setSaver saver
              ((world.savers saver).reset .idle))) ↔
      world.files.held saver = none := by
  obtain ⟨hrunning, hcontext, hfiles⟩ := (saverLifecycle_iff hsound).1 hlife
  rw [saverLifecycle_iff hsound.release_acquire]
  constructor
  · rintro ⟨_, _, hafter⟩
    exact (Ledger.accounted_release_acquire_iff hsound hfiles saver).1 hafter
  · intro hnone
    refine ⟨?_, ?_, (Ledger.accounted_release_acquire_iff hsound hfiles saver).2 hnone⟩
    · intro other hother
      simp only [SaverWorld.setSaver, SaverWorld.setSaveContext, SaverWorld.closeFile,
        Function.update_apply, Ledger.held_release, Ledger.held_acquire] at hother ⊢
      split_ifs at hother ⊢ with hsame
      · exact absurd hother (by simp [FsSaveDevice.reset])
      · exact hrunning other hother
    · intro other found hfound
      simp only [SaverWorld.setSaver, SaverWorld.setSaveContext, SaverWorld.closeFile,
        Function.update_apply] at hfound ⊢
      split_ifs at hfound
      have hne : found ≠ saver := by
        rintro rfl
        exact not_saveContext_of_held_none hlife hnone other hfound
      rw [if_neg hne, if_neg hne]
      exact hcontext other found hfound

/-- And beginning with a file that does not open. -/
theorem lifecycle_notOpened_iff (hsound : world.files.Sound) (hlife : SaverLifecycle world)
    (saver : Nat) :
    SaverLifecycle { world with files := world.files.forget saver } ↔
      world.files.held saver = none := by
  obtain ⟨hrunning, hcontext, hfiles⟩ := (saverLifecycle_iff hsound).1 hlife
  rw [saverLifecycle_iff hsound.forget]
  constructor
  · rintro ⟨_, _, hafter⟩
    exact (Ledger.accounted_forget_iff hsound hfiles saver).1 hafter
  · intro hnone
    refine ⟨?_, hcontext, (Ledger.accounted_forget_iff hsound hfiles saver).2 hnone⟩
    intro other hother
    rw [Ledger.held_forget]
    split_ifs with hsame
    · rw [hsame] at hother
      exact absurd hnone (hrunning saver hother)
    · exact hrunning other hother

theorem lifecycle_beginDevice_iff (hsound : world.files.Sound) (hlife : SaverLifecycle world)
    (saver device : Nat) (fileOpened threadStarted : Bool) :
    SaverLifecycle
        (saverCall world (.beginDevice (some saver) (some device) fileOpened threadStarted)) ↔
      Orderly world (.beginDevice (some saver) (some device) fileOpened threadStarted) := by
  simp only [saverCall, fsSaveBeginDevice, Orderly]
  by_cases hsaving : alreadySaving world device = true
  · simp only [hsaving, ↓reduceIte, true_or, iff_true]
    exact hlife
  · simp only [hsaving, Bool.false_eq_true, ↓reduceIte, false_or]
    split_ifs
    · exact lifecycle_begun_iff hsound hlife saver device
    · exact lifecycle_notStarted_iff hsound hlife saver device
    · exact lifecycle_notOpened_iff hsound hlife saver

theorem lifecycle_saverCall_iff (hsound : world.files.Sound) (hlife : SaverLifecycle world)
    (call : SaverCall) : SaverLifecycle (saverCall world call) ↔ Orderly world call := by
  have hnull : SaverLifecycle world ↔ True := iff_true_intro hlife
  cases call with
  | init saver =>
      cases saver with
      | none => exact hnull
      | some saver => exact lifecycle_init_iff hsound hlife saver
  | beginDevice saver device fileOpened threadStarted =>
      cases saver with
      | none => exact hnull
      | some saver =>
          cases device with
          | none => exact hnull
          | some device =>
              exact lifecycle_beginDevice_iff hsound hlife saver device fileOpened threadStarted
  | endDevice saver device =>
      cases saver with
      | none => exact hnull
      | some saver =>
          cases device with
          | none => exact hnull
          | some device => exact lifecycle_endDevice_iff hsound hlife saver device
  | destroy saver =>
      cases saver with
      | none => exact hnull
      | some saver => exact lifecycle_destroy_iff hsound hlife saver

end Calls

theorem zeroSavers_lifecycle : zeroSavers.files.Sound ∧ SaverLifecycle zeroSavers := by
  refine ⟨⟨?_, fun _ _ => rfl⟩, ⟨?_, ?_, ?_⟩⟩
  · intro saver file hfile
    exact absurd hfile (by simp [zeroSavers])
  · intro saver hsaver
    exact absurd hsaver (by simp [zeroSavers])
  · intro device saver hdevice
    exact absurd hdevice (by simp [zeroSavers])
  · intro file hfile
    exact absurd hfile (Nat.not_lt_zero file)

/-- The lifecycle is kept after every call of a sequence exactly when each call
is orderly where it is made. -/
theorem saverLifecycle_along_iff (calls : List SaverCall) :
    (∀ front, front <+: calls → SaverLifecycle (run saverCall zeroSavers front)) ↔
      Along saverCall Orderly zeroSavers calls := by
  obtain ⟨hsound, hlife⟩ := zeroSavers_lifecycle
  have hsoundStep : ∀ world call, world.files.Sound → SaverLifecycle world →
      Orderly world call → (saverCall world call).files.Sound :=
    fun _ call hkept hholds _ => sound_saverCall hkept hholds call
  exact forall_prefix_run_iff hsoundStep
    (fun _ call hkept hholds => lifecycle_saverCall_iff hkept hholds call) hsound hlife

def beginThenDestroy : List SaverCall :=
  [.init (some 0), .beginDevice (some 0) (some 0) true true, .destroy (some 0)]

/-- A saver destroyed while it runs still runs, without a file. -/
theorem saverLifecycle_not_destroyed :
    ¬ ∀ calls front : List SaverCall, front <+: calls →
      SaverLifecycle (run saverCall zeroSavers front) := by
  intro hall
  have hlife := hall _ beginThenDestroy List.prefix_rfl
  have hnone : (run saverCall zeroSavers beginThenDestroy).files.held 0 = none := by decide
  obtain ⟨file, hfile, _⟩ := hlife.running 0 rfl
  rw [hnone] at hfile
  exact absurd hfile (by simp)

end Trifecta
