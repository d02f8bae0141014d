/-
Replay handles with the files and offset tables behind their pointers: what a call opens,
allocates, closes and frees, and what that does to a pointer.
-/
import Trifecta.ReplayHandles
import Trifecta.Library.Ledger

namespace Trifecta

open SharedScratch

/-- The handles, `linebuf`, the open files and the allocated offset tables. -/
structure ReplayMemory (H : Type) where
  world : World H ReplayRecord LineBuffer
  files : Ledger H
  tables : Ledger H

/-- Before any call, with every record zeroed. -/
def zeroReplays (H : Type) (linebuf : LineBuffer) : ReplayMemory H where
  world := { parts := fun _ => zeroRecord, scratch := linebuf }
  files := { held := fun _ => none, acquired := 0, released := fun _ => 0 }
  tables := { held := fun _ => none, acquired := 0, released := fun _ => 0 }

variable {H : Type} [DecidableEq H]

/-- The indexing loop of an open that gets that far. -/
def indexingOf (linebuf : LineBuffer) : ReplayRequest → Option Indexing
  | .openFile alloc (some content) sparseStep =>
      let got := fetchLine linebuf { content, pos := 0 }
      if sparseStep = 0 ∨ got.code ≤ 0 ∨ alloc (4096 * 8) = false then none
      else
        some (ReplayRecord.indexRows alloc sparseStep
          { offsets := [], cap := 4096, pos := got.file.pos, line := 0 } got.file got.buf.bytes)
  | _ => none

/-- The loop ends at a capacity that wraps to 0.  The C library's `realloc` to no bytes
frees the table and returns a null pointer, and the open fails with its own pointer as it
was. -/
def reallocFrees (linebuf : LineBuffer) (request : ReplayRequest) : Bool :=
  match indexingOf linebuf request with
  | some indexed => !indexed.complete && indexed.state.cap * 2 % 2 ^ 32 = 0
  | none => false

/-- The table has been freed: it was full, its capacity wraps when it is doubled, and the
file has not been indexed. -/
def ReplayRecord.dangling (record : ReplayRecord) : Bool :=
  match record.offsets with
  | none => false
  | some offsets =>
      !record.hasIndex && !offsets.isEmpty && offsets.length * 2 % 2 ^ 32 = 0

/-- A ledger after a call that finds the record `before` and leaves `after`.  Opening with a
step above 0 clears the pointer, and may set it to something new; closing releases what it
is set to. -/
def ledgerAfter (isSet : ReplayRecord → Bool) (before after : ReplayRecord) (handle : H)
    (ledger : Ledger H) : ReplayRequest → Ledger H
  | .openFile _ _ sparseStep =>
      if sparseStep = 0 then ledger
      else if isSet after then ledger.acquire handle
      else ledger.forget handle
  | .close => if isSet before then ledger.release handle else ledger
  | .read _ => ledger
  | .getSize => ledger

/-- A call with what it opens, allocates, closes and frees. -/
def ReplayMemory.perform (floats : FloatText) (memory : ReplayMemory H)
    (request : H × ReplayRequest) : ReplayMemory H :=
  let before := memory.world.parts request.1
  let world := memory.world.perform (replayRequest floats) request
  let after := world.parts request.1
  { world
    files := ledgerAfter (·.fp.isSome) before after request.1 memory.files request.2
    tables :=
      let tables := ledgerAfter (·.offsets.isSome) before after request.1 memory.tables request.2
      if reallocFrees memory.world.scratch request.2 then tables.free request.1 else tables }

/-- The tables without the pointers that dangle. -/
def ReplayMemory.ownedTables (memory : ReplayMemory H) : Ledger H :=
  memory.tables.owned fun handle => (memory.world.parts handle).dangling

/-- A handle that is closed has no table that its failed open has freed already. -/
def ClosesOwned (memory : ReplayMemory H) (request : H × ReplayRequest) : Prop :=
  match request.2 with
  | .close => (memory.world.parts request.1).dangling = false
  | _ => True

/-- A handle is opened when it holds no file and no table, or with a step of 0. -/
def OpensClosed (memory : ReplayMemory H) (request : H × ReplayRequest) : Prop :=
  match request.2 with
  | .openFile _ _ sparseStep =>
      sparseStep = 0 ∨
        memory.files.held request.1 = none ∧ memory.ownedTables.held request.1 = none
  | _ => True

/-- No file has been closed twice, and no table has been freed twice. -/
def ReplayMemory.ReleasedOnce (memory : ReplayMemory H) : Prop :=
  ∀ resource, memory.files.released resource ≤ 1 ∧ memory.tables.released resource ≤ 1

/-- Every file opened is with one handle or has been closed once, and every table allocated
is with one handle or has been freed once. -/
structure ReplayMemory.Accounted (memory : ReplayMemory H) : Prop where
  files : memory.files.Accounted
  tables : memory.ownedTables.Accounted

/-- A pointer is set exactly in the handles that hold something; what it points to has been
released where it is stale, and is the handle's own where it is not. -/
structure Tracks (isSet stale : ReplayRecord → Bool) (parts : H → ReplayRecord)
    (ledger : Ledger H) : Prop where
  owned : (ledger.owned fun handle => stale (parts handle)).Exclusive
  isSet : ∀ handle, isSet (parts handle) = (ledger.held handle).isSome
  stale : ∀ handle resource, stale (parts handle) = true →
    ledger.held handle = some resource → ledger.released resource = 1

/-- What a call does to a pointer, `freed` being what `realloc` does to its target. -/
def KeepsPointer (isSet stale : ReplayRecord → Bool) (freed : Bool)
    (before after : ReplayRecord) : ReplayRequest → Prop
  | .openFile _ _ sparseStep =>
      if sparseStep = 0 then freed = false ∧ isSet after = isSet before ∧ stale after = stale before
      else stale after = freed ∧ (freed = true → isSet after = true)
  | .close => freed = false ∧ isSet after = false ∧ stale after = false
  | .read _ => freed = false ∧ isSet after = isSet before ∧ stale after = stale before
  | .getSize => freed = false ∧ isSet after = isSet before ∧ stale after = stale before

/-- Nothing is lost by a call, seen by one pointer: it is not set to something new over what
the handle has, and what is closed is not stale. -/
def LosesNothing (stale : ReplayRecord → Bool) (parts : H → ReplayRecord) (ledger : Ledger H)
    (handle : H) : ReplayRequest → Prop
  | .openFile _ _ sparseStep =>
      sparseStep = 0 ∨ (ledger.owned fun other => stale (parts other)).held handle = none
  | .close => stale (parts handle) = false
  | .read _ => True
  | .getSize => True

section Pointers

variable {isSet stale : ReplayRecord → Bool} {parts : H → ReplayRecord} {ledger : Ledger H}
  {request : ReplayRequest} {freed : Bool}

theorem stale_update (stale : ReplayRecord → Bool) (parts : H → ReplayRecord) (handle : H)
    (after : ReplayRecord) :
    (fun other => stale (Function.update parts handle after other)) =
      Function.update (fun other => stale (parts other)) handle (stale after) :=
  funext fun other => Function.apply_update (fun _ => stale) parts handle after other

omit [DecidableEq H] in
/-- What stale pointers point to is nobody's. -/
theorem Tracks.not_held (htracks : Tracks isSet stale parts ledger) {handle other : H}
    {resource : Nat} (hstale : stale (parts other) = true)
    (hother : ledger.held other = some resource)
    (hfresh : stale (parts handle) = false) : ledger.held handle ≠ some resource := by
  intro hhandle
  have howned : (ledger.owned fun handle => stale (parts handle)).held handle = some resource := by
    rw [Ledger.held_owned, hfresh, hhandle]
    rfl
  have hzero : ledger.released resource = 0 := (htracks.owned.held handle resource howned).2
  rw [htracks.stale other resource hstale hother] at hzero
  exact Nat.one_ne_zero hzero

omit [DecidableEq H] in
theorem Tracks.acquired_gt (htracks : Tracks isSet stale parts ledger) {handle : H}
    {resource : Nat} (hstale : stale (parts handle) = true)
    (hheld : ledger.held handle = some resource) : resource < ledger.acquired := by
  by_contra hlarge
  have hzero : ledger.released resource = 0 :=
    htracks.owned.unused resource (Nat.le_of_not_lt hlarge)
  rw [htracks.stale handle resource hstale hheld] at hzero
  exact Nat.one_ne_zero hzero

section Updates

variable (htracks : Tracks isSet stale parts ledger) {handle : H} {after : ReplayRecord}

include htracks

/-- What is stale is released a second time when its holder is closed. -/
theorem Tracks.released_twice (hset : isSet (parts handle) = true)
    (hstale : stale (parts handle) = true) :
    ∃ resource, ledger.held handle = some resource ∧
      (ledger.release handle).released resource = 2 := by
  rw [htracks.isSet] at hset
  obtain ⟨resource, hheld⟩ := Option.isSome_iff_exists.1 hset
  refine ⟨resource, hheld, ?_⟩
  rw [Ledger.released_release, if_pos hheld, htracks.stale handle resource hstale hheld]

theorem Tracks.not_accounted_close (hset : isSet (parts handle) = true)
    (hstale : stale (parts handle) = true) :
    ¬ ((ledger.release handle).owned fun other =>
      stale (Function.update parts handle after other)).Accounted := by
  obtain ⟨resource, hheld, htwice⟩ := htracks.released_twice hset hstale
  intro haccounted
  have hacquired : resource < (ledger.release handle).acquired := by
    rw [Ledger.acquired_release]
    exact htracks.acquired_gt hstale hheld
  rcases haccounted resource hacquired with ⟨⟨other, hother, _⟩, _⟩ | ⟨hone, _⟩
  · rw [Ledger.held_owned, Ledger.held_release] at hother
    split_ifs at hother with hflag hsame
    rw [Function.update_of_ne hsame] at hflag
    exact htracks.not_held hstale hheld (Bool.eq_false_of_not_eq_true hflag) hother
  · have hreleased : (ledger.release handle).released resource = 1 := hone
    rw [htwice] at hreleased
    exact absurd hreleased (by decide)

theorem Tracks.same (hset : isSet after = isSet (parts handle))
    (hstale : stale after = stale (parts handle)) :
    Tracks isSet stale (Function.update parts handle after) ledger := by
  have hflags : (fun other => stale (Function.update parts handle after other)) =
      fun other => stale (parts other) := by
    rw [stale_update, hstale]
    exact Function.update_eq_self handle fun other => stale (parts other)
  refine ⟨hflags ▸ htracks.owned, fun other => ?_, fun other resource hother hheld => ?_⟩
  · by_cases hsame : other = handle
    · rw [hsame, Function.update_self, hset]
      exact htracks.isSet handle
    · rw [Function.update_of_ne hsame]
      exact htracks.isSet other
  · exact htracks.stale other resource ((congrFun hflags other).symm.trans hother) hheld

theorem Tracks.release (hset : isSet after = false) (hstale : stale after = false)
    (hfresh : stale (parts handle) = false) :
    Tracks isSet stale (Function.update parts handle after) (ledger.release handle) := by
  refine ⟨?_, fun other => ?_, fun other resource hother hheld => ?_⟩
  · rw [stale_update, hstale, Ledger.owned_release (fun other => stale (parts other)) hfresh]
    exact htracks.owned.release
  · rw [Function.update_apply, Ledger.held_release]
    split_ifs
    · exact hset
    · exact htracks.isSet other
  · rw [Function.update_apply] at hother
    rw [Ledger.held_release] at hheld
    split_ifs at hother hheld
    · rw [Ledger.released_release, if_neg (htracks.not_held hother hheld hfresh)]
      exact htracks.stale other resource hother hheld

theorem Tracks.forget (hset : isSet after = false) (hstale : stale after = false) :
    Tracks isSet stale (Function.update parts handle after) (ledger.forget handle) := by
  refine ⟨?_, fun other => ?_, fun other resource hother hheld => ?_⟩
  · rw [stale_update, hstale, Ledger.owned_forget]
    exact htracks.owned.forget
  · rw [Function.update_apply, Ledger.held_forget]
    split_ifs
    · exact hset
    · exact htracks.isSet other
  · rw [Function.update_apply] at hother
    rw [Ledger.held_forget] at hheld
    split_ifs at hother hheld
    exact htracks.stale other resource hother hheld

theorem Tracks.acquire (hset : isSet after = true) (hstale : stale after = false) :
    Tracks isSet stale (Function.update parts handle after) (ledger.acquire handle) := by
  refine ⟨?_, fun other => ?_, fun other resource hother hheld => ?_⟩
  · rw [stale_update, hstale, Ledger.owned_acquire]
    exact htracks.owned.acquire
  · rw [Function.update_apply, Ledger.held_acquire]
    split_ifs
    · exact hset
    · exact htracks.isSet other
  · rw [Function.update_apply] at hother
    rw [Ledger.held_acquire] at hheld
    split_ifs at hother hheld with hsame
    · rw [hstale] at hother
      cases hother
    · exact htracks.stale other resource hother hheld

/-- A table that is allocated and freed by `realloc` in one open. -/
theorem Tracks.free (hset : isSet after = true) (hstale : stale after = true) :
    Tracks isSet stale (Function.update parts handle after)
      ((ledger.acquire handle).free handle) := by
  have hnext : (ledger.acquire handle).held handle = some ledger.acquired := by
    rw [Ledger.held_acquire, if_pos rfl]
  refine ⟨?_, fun other => ?_, fun other resource hother hheld => ?_⟩
  · rw [stale_update, hstale, Ledger.owned_free]
    exact htracks.owned.acquire.release
  · change _ = ((ledger.acquire handle).held other).isSome
    rw [Function.update_apply, Ledger.held_acquire]
    split_ifs
    · exact hset
    · exact htracks.isSet other
  · change ((ledger.acquire handle).release handle).released resource = 1
    change (ledger.acquire handle).held other = some resource at hheld
    rw [Ledger.released_release, hnext]
    rw [Function.update_apply] at hother
    rw [Ledger.held_acquire] at hheld
    split_ifs at hother hheld with hsame
    · rw [if_pos hheld]
      obtain rfl := Option.some.inj hheld
      exact congrArg (· + 1) (htracks.owned.unused ledger.acquired (Nat.le_refl _))
    · have hless := htracks.acquired_gt hother hheld
      rw [if_neg fun hlast => Nat.ne_of_gt hless (Option.some.inj hlast)]
      exact htracks.stale other resource hother hheld

end Updates

/-- One call on a handle, seen by one of the pointers. -/
theorem Tracks.after (htracks : Tracks isSet stale parts ledger) {handle : H}
    {after : ReplayRecord} (hafter : KeepsPointer isSet stale freed (parts handle) after request)
    (hcloses : request = .close → stale (parts handle) = false) :
    Tracks isSet stale (Function.update parts handle after)
      (if freed then (ledgerAfter isSet (parts handle) after handle ledger request).free handle
      else ledgerAfter isSet (parts handle) after handle ledger request) := by
  cases request with
  | read call =>
      obtain ⟨rfl, hset, hstale⟩ := hafter
      exact htracks.same hset hstale
  | getSize =>
      obtain ⟨rfl, hset, hstale⟩ := hafter
      exact htracks.same hset hstale
  | close =>
      obtain ⟨rfl, hset, hstale⟩ := hafter
      have hfresh := hcloses rfl
      rw [if_neg Bool.false_ne_true, ledgerAfter]
      split_ifs with hheld
      · exact htracks.release hset hstale hfresh
      · exact htracks.same (hset.trans (Bool.eq_false_of_not_eq_true hheld).symm)
          (hstale.trans hfresh.symm)
  | openFile alloc content sparseStep =>
      rw [KeepsPointer] at hafter
      rw [ledgerAfter]
      by_cases hstep : sparseStep = 0
      · rw [if_pos hstep] at hafter ⊢
        obtain ⟨rfl, hset, hstale⟩ := hafter
        exact htracks.same hset hstale
      · rw [if_neg hstep] at hafter ⊢
        obtain ⟨hstale, hset⟩ := hafter
        cases freed with
        | true =>
            rw [if_pos rfl, if_pos (hset rfl)]
            exact htracks.free (hset rfl) hstale
        | false =>
            rw [if_neg Bool.false_ne_true]
            split_ifs with hnew
            · exact htracks.acquire hnew hstale
            · exact htracks.forget (Bool.eq_false_of_not_eq_true hnew) hstale

/-- What an open loses is what the handle still had. -/
theorem Tracks.accounted_open_iff (htracks : Tracks isSet stale parts ledger)
    (haccounted : (ledger.owned fun other => stale (parts other)).Accounted) {handle : H}
    {after : ReplayRecord} (hstale : stale after = freed)
    (hset : freed = true → isSet after = true) :
    ((if freed then
        (if isSet after then ledger.acquire handle else ledger.forget handle).free handle
      else if isSet after then ledger.acquire handle else ledger.forget handle).owned fun other =>
        stale (Function.update parts handle after other)).Accounted ↔
      (ledger.owned fun other => stale (parts other)).held handle = none := by
  have hsound := htracks.owned.toSound
  cases freed with
  | true =>
      rw [if_pos rfl, if_pos (hset rfl), stale_update, hstale, Ledger.owned_free]
      exact Ledger.accounted_release_acquire_iff hsound haccounted handle
  | false =>
      rw [if_neg Bool.false_ne_true]
      split_ifs
      · rw [stale_update, hstale, Ledger.owned_acquire]
        exact Ledger.accounted_acquire_iff hsound haccounted handle
      · rw [stale_update, hstale, Ledger.owned_forget]
        exact Ledger.accounted_forget_iff hsound haccounted handle

theorem Tracks.accounted_after_iff (htracks : Tracks isSet stale parts ledger)
    (haccounted : (ledger.owned fun other => stale (parts other)).Accounted) {handle : H}
    {after : ReplayRecord} (hafter : KeepsPointer isSet stale freed (parts handle) after request)
    (hflag : stale (parts handle) = true → isSet (parts handle) = true) :
    ((if freed then (ledgerAfter isSet (parts handle) after handle ledger request).free handle
      else ledgerAfter isSet (parts handle) after handle ledger request).owned fun other =>
        stale (Function.update parts handle after other)).Accounted ↔
      LosesNothing stale parts ledger handle request := by
  have hkept : stale after = stale (parts handle) →
      (ledger.owned fun other => stale (Function.update parts handle after other)) =
        ledger.owned fun other => stale (parts other) := by
    intro hstale
    rw [stale_update, hstale, Function.update_eq_self handle fun other => stale (parts other)]
  cases request with
  | read call =>
      obtain ⟨rfl, _, hstale⟩ := hafter
      rw [if_neg Bool.false_ne_true, ledgerAfter, hkept hstale]
      exact iff_of_true haccounted trivial
  | getSize =>
      obtain ⟨rfl, _, hstale⟩ := hafter
      rw [if_neg Bool.false_ne_true, ledgerAfter, hkept hstale]
      exact iff_of_true haccounted trivial
  | close =>
      obtain ⟨rfl, hset, hstale⟩ := hafter
      rw [if_neg Bool.false_ne_true, ledgerAfter, LosesNothing]
      cases hbefore : stale (parts handle) with
      | true =>
          rw [if_pos (hflag hbefore)]
          exact iff_of_false (htracks.not_accounted_close (hflag hbefore) hbefore) fun hfresh =>
            nomatch hfresh
      | false =>
          refine iff_of_true ?_ rfl
          split_ifs
          · rw [stale_update, hstale,
              Ledger.owned_release (fun other => stale (parts other)) hbefore]
            exact haccounted.release htracks.owned.toSound
          · rw [hkept (hstale.trans hbefore.symm)]
            exact haccounted
  | openFile alloc content sparseStep =>
      rw [KeepsPointer] at hafter
      rw [ledgerAfter, LosesNothing]
      by_cases hstep : sparseStep = 0
      · rw [if_pos hstep] at hafter ⊢
        obtain ⟨rfl, _, hstale⟩ := hafter
        rw [if_neg Bool.false_ne_true, hkept hstale]
        exact iff_of_true haccounted (Or.inl hstep)
      · rw [if_neg hstep] at hafter ⊢
        rw [or_iff_right hstep]
        obtain ⟨hstale, hset⟩ := hafter
        exact htracks.accounted_open_iff haccounted hstale hset

end Pointers

end Trifecta
