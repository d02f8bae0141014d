/-
A ledger of numbered resources: who holds which one, and how often each has
been released.
-/
import Mathlib.Logic.Function.Basic
import Mathlib.Logic.ExistsUnique
import Mathlib.Tactic.ByContra
import Mathlib.Tactic.SplitIfs

universe u

/-- Resources are numbered in the order in which they are acquired. -/
structure Ledger (H : Type u) where
  held : H → Option Nat
  acquired : Nat
  released : Nat → Nat

namespace Ledger

variable {H : Type u}

/-- What is held has been acquired and not been released. -/
structure Sound (ledger : Ledger H) : Prop where
  held : ∀ holder resource, ledger.held holder = some resource →
    resource < ledger.acquired ∧ ledger.released resource = 0
  unused : ∀ resource, ledger.acquired ≤ resource → ledger.released resource = 0

/-- A resource either is with exactly one holder or has been released exactly
once. -/
def AccountedFor (ledger : Ledger H) (resource : Nat) : Prop :=
  Xor (∃! holder, ledger.held holder = some resource) (ledger.released resource = 1)

def Accounted (ledger : Ledger H) : Prop :=
  ∀ resource < ledger.acquired, ledger.AccountedFor resource

theorem accountedFor_congr {first second : Ledger H} {resource : Nat}
    (hheld : ∀ holder, first.held holder = some resource ↔ second.held holder = some resource)
    (hreleased : first.released resource = second.released resource) :
    first.AccountedFor resource ↔ second.AccountedFor resource := by
  rw [AccountedFor, AccountedFor, existsUnique_congr hheld, hreleased]

theorem Sound.unique {ledger : Ledger H} (hsound : ledger.Sound) (haccounted : ledger.Accounted)
    {first second : H} {resource : Nat} (hfirst : ledger.held first = some resource)
    (hsecond : ledger.held second = some resource) : first = second := by
  obtain ⟨hacquired, hreleased⟩ := hsound.held first resource hfirst
  rcases haccounted resource hacquired with ⟨hunique, _⟩ | ⟨hone, _⟩
  · exact hunique.unique hfirst hsecond
  · rw [hreleased] at hone
    exact absurd hone Nat.zero_ne_one

/-- Nobody holds the resource that will be acquired next. -/
theorem Sound.not_held_next {ledger : Ledger H} (hsound : ledger.Sound) (other : H) :
    ledger.held other ≠ some ledger.acquired :=
  fun hother => Nat.lt_irrefl _ (hsound.held other _ hother).1

/-- A resource that nobody holds and nobody has released is unaccounted for. -/
theorem not_accounted_of_lost {ledger : Ledger H} {resource : Nat}
    (hacquired : resource < ledger.acquired)
    (hnobody : ∀ other, ledger.held other ≠ some resource)
    (hreleased : ledger.released resource = 0) : ¬ ledger.Accounted := by
  intro haccounted
  rcases haccounted resource hacquired with ⟨⟨other, hother, _⟩, _⟩ | ⟨hone, _⟩
  · exact hnobody other hother
  · rw [hreleased] at hone
    exact Nat.zero_ne_one hone

variable [DecidableEq H]

/-- The holder drops what it holds without releasing it. -/
def forget (ledger : Ledger H) (holder : H) : Ledger H :=
  { ledger with held := Function.update ledger.held holder none }

/-- The holder takes a new resource, and drops what it holds. -/
def acquire (ledger : Ledger H) (holder : H) : Ledger H :=
  { ledger with
    held := Function.update ledger.held holder (some ledger.acquired)
    acquired := ledger.acquired + 1 }

/-- The holder releases what it holds, if anything. -/
def release (ledger : Ledger H) (holder : H) : Ledger H :=
  match ledger.held holder with
  | none => ledger
  | some resource =>
      { ledger.forget holder with
        released := Function.update ledger.released resource (ledger.released resource + 1) }

section Lemmas

variable {ledger : Ledger H} {holder : H}

@[simp] theorem held_forget (other : H) :
    (ledger.forget holder).held other = if other = holder then none else ledger.held other :=
  Function.update_apply _ _ _ _

@[simp] theorem held_acquire (other : H) :
    (ledger.acquire holder).held other =
      if other = holder then some ledger.acquired else ledger.held other :=
  Function.update_apply _ _ _ _

@[simp] theorem held_release (other : H) :
    (ledger.release holder).held other = if other = holder then none else ledger.held other := by
  rw [release]
  split
  · next hnone =>
      split_ifs with hother
      · rw [hother, hnone]
      · rfl
  · exact held_forget other

theorem released_release (resource : Nat) :
    (ledger.release holder).released resource =
      if ledger.held holder = some resource then ledger.released resource + 1
      else ledger.released resource := by
  rw [release]
  split
  · next hnone => rw [hnone, if_neg (by simp)]
  · next held hheld =>
      rw [hheld]
      by_cases hsame : resource = held
      · rw [hsame, if_pos rfl]
        exact Function.update_self _ _ _
      · rw [if_neg (by simpa using Ne.symm hsame)]
        exact Function.update_of_ne hsame _ _

@[simp] theorem acquired_release : (ledger.release holder).acquired = ledger.acquired := by
  rw [release]
  split <;> rfl

theorem Sound.forget (hsound : ledger.Sound) : (ledger.forget holder).Sound := by
  refine ⟨fun other resource hheld => ?_, hsound.unused⟩
  rw [held_forget] at hheld
  split_ifs at hheld
  exact hsound.held other resource hheld

theorem Sound.acquire (hsound : ledger.Sound) : (ledger.acquire holder).Sound := by
  refine ⟨fun other resource hheld => ?_, fun resource hle => ?_⟩
  · rw [held_acquire] at hheld
    split_ifs at hheld
    · obtain rfl := Option.some.inj hheld
      exact ⟨Nat.lt_succ_self _, hsound.unused _ (Nat.le_refl _)⟩
    · obtain ⟨hacquired, hreleased⟩ := hsound.held other resource hheld
      exact ⟨Nat.lt_succ_of_lt hacquired, hreleased⟩
  · exact hsound.unused resource (Nat.le_of_succ_le hle)

/-- Releasing never touches a resource that another holder has. -/
theorem Sound.release (hsound : ledger.Sound) (hunique : ∀ other resource,
      ledger.held holder = some resource → ledger.held other = some resource → other = holder) :
    (ledger.release holder).Sound := by
  rw [Ledger.release]
  split
  · exact hsound
  · next resource hresource =>
      refine ⟨fun other found hheld => ?_, fun found hle => ?_⟩
      · have hforget := hheld
        change (ledger.forget holder).held other = some found at hforget
        rw [held_forget] at hforget
        split_ifs at hforget with hother
        obtain ⟨hacquired, hreleased⟩ := hsound.held other found hforget
        have hne : found ≠ resource := by
          rintro rfl
          exact hother (hunique other found hresource hforget)
        exact ⟨hacquired, (Function.update_of_ne hne _ _).trans hreleased⟩
      · have hne : found ≠ resource := by
          rintro rfl
          exact absurd (hsound.held holder found hresource).1 (Nat.not_lt_of_le hle)
        exact (Function.update_of_ne hne _ _).trans (hsound.unused found hle)

theorem Sound.release_acquire (hsound : ledger.Sound) :
    ((ledger.acquire holder).release holder).Sound := by
  refine hsound.acquire.release fun other resource hholder hother => ?_
  rw [held_acquire, if_pos rfl] at hholder
  rw [held_acquire, ← hholder] at hother
  by_contra hne
  rw [if_neg hne] at hother
  exact hsound.not_held_next other hother

/-- No two holders have one resource, and none has been released twice. -/
structure Exclusive (ledger : Ledger H) : Prop extends ledger.Sound where
  unique : ∀ first second resource, ledger.held first = some resource →
    ledger.held second = some resource → first = second
  once : ∀ resource, ledger.released resource ≤ 1

theorem Exclusive.forget (hexclusive : ledger.Exclusive) : (ledger.forget holder).Exclusive := by
  refine ⟨hexclusive.toSound.forget, fun first second resource hfirst hsecond => ?_,
    hexclusive.once⟩
  rw [held_forget] at hfirst hsecond
  split_ifs at hfirst hsecond
  exact hexclusive.unique first second resource hfirst hsecond

theorem Exclusive.acquire (hexclusive : ledger.Exclusive) :
    (ledger.acquire holder).Exclusive := by
  refine ⟨hexclusive.toSound.acquire, fun first second resource hfirst hsecond => ?_,
    hexclusive.once⟩
  rw [held_acquire] at hfirst hsecond
  split_ifs at hfirst hsecond with hone hother hother
  · exact hone.trans hother.symm
  · exact absurd (hsecond.trans hfirst.symm) (hexclusive.toSound.not_held_next second)
  · exact absurd (hfirst.trans hsecond.symm) (hexclusive.toSound.not_held_next first)
  · exact hexclusive.unique first second resource hfirst hsecond

/-- Whatever has been dropped before, no release is the second of its resource. -/
theorem Exclusive.release (hexclusive : ledger.Exclusive) :
    (ledger.release holder).Exclusive := by
  have hsound : (ledger.release holder).Sound := hexclusive.toSound.release
    fun other resource hholder hother => hexclusive.unique other holder resource hother hholder
  refine ⟨hsound, fun first second resource hfirst hsecond => ?_, fun resource => ?_⟩
  · rw [held_release] at hfirst hsecond
    split_ifs at hfirst hsecond
    exact hexclusive.unique first second resource hfirst hsecond
  · rw [released_release]
    split_ifs with hheld
    · have hzero := (hexclusive.held holder resource hheld).2
      omega
    · exact hexclusive.once resource

theorem Accounted.release (haccounted : ledger.Accounted) (hsound : ledger.Sound) :
    (ledger.release holder).Accounted := by
  rw [Ledger.release]
  split
  · exact haccounted
  · next resource hresource =>
      intro found hfound
      by_cases hsame : found = resource
      · subst hsame
        refine Or.inr ⟨?_, ?_⟩
        · simp [(hsound.held holder found hresource).2]
        · rintro ⟨other, hother, _⟩
          change (ledger.forget holder).held other = some found at hother
          rw [held_forget] at hother
          split_ifs at hother with hne
          exact hne (hsound.unique haccounted hother hresource)
      · have hreleased := Function.update_of_ne hsame (ledger.released resource + 1) ledger.released
        refine (accountedFor_congr (fun other => ?_) hreleased).2 (haccounted found hfound)
        change (ledger.forget holder).held other = some found ↔ ledger.held other = some found
        rw [held_forget]
        split_ifs with hother
        · rw [hother, hresource]
          simp [Ne.symm hsame]
        · exact Iff.rfl

theorem Accounted.acquire (haccounted : ledger.Accounted) (hsound : ledger.Sound)
    (hnone : ledger.held holder = none) : (ledger.acquire holder).Accounted := by
  intro resource hresource
  rcases Nat.lt_succ_iff_lt_or_eq.1 hresource with hold | rfl
  · have hheld : ∀ other, (ledger.acquire holder).held other = some resource ↔
        ledger.held other = some resource := by
      intro other
      rw [held_acquire]
      split_ifs with hother
      · rw [hother, hnone]
        simp [Nat.ne_of_gt hold]
      · exact Iff.rfl
    exact (accountedFor_congr hheld rfl).2 (haccounted resource hold)
  · refine Or.inl ⟨⟨holder, by simp, fun other hother => ?_⟩, ?_⟩
    · simp only [held_acquire] at hother
      by_contra hne
      rw [if_neg hne] at hother
      exact hsound.not_held_next other hother
    · have hunused : (ledger.acquire holder).released ledger.acquired = 0 :=
        hsound.unused _ (Nat.le_refl _)
      rw [hunused]
      exact Nat.zero_ne_one

end Lemmas

section Exact

variable {ledger : Ledger H} (hsound : ledger.Sound) (haccounted : ledger.Accounted) (holder : H)

include hsound haccounted

/-- Dropping loses a resource exactly when there is one to drop. -/
theorem accounted_forget_iff :
    (ledger.forget holder).Accounted ↔ ledger.held holder = none := by
  constructor
  · intro hafter
    by_contra hsome
    obtain ⟨resource, hresource⟩ := Option.ne_none_iff_exists'.1 hsome
    obtain ⟨hacquired, hreleased⟩ := hsound.held holder resource hresource
    refine absurd hafter (not_accounted_of_lost hacquired (fun other hother => ?_) hreleased)
    rw [held_forget] at hother
    split_ifs at hother with hne
    exact hne (hsound.unique haccounted hother hresource)
  · intro hnone
    have hsame : ledger.forget holder = ledger := by
      rw [forget, ← hnone, Function.update_eq_self]
    rw [hsame]
    exact haccounted

theorem accounted_acquire_iff :
    (ledger.acquire holder).Accounted ↔ ledger.held holder = none := by
  constructor
  · intro hafter
    by_contra hsome
    obtain ⟨resource, hresource⟩ := Option.ne_none_iff_exists'.1 hsome
    obtain ⟨hacquired, hreleased⟩ := hsound.held holder resource hresource
    refine absurd hafter (not_accounted_of_lost (Nat.lt_succ_of_lt hacquired)
      (fun other hother => ?_) hreleased)
    rw [held_acquire] at hother
    split_ifs at hother with hne
    · exact absurd (Option.some.inj hother) (Nat.ne_of_gt hacquired)
    · exact hne (hsound.unique haccounted hother hresource)
  · exact haccounted.acquire hsound

theorem accounted_release_acquire_iff :
    ((ledger.acquire holder).release holder).Accounted ↔ ledger.held holder = none := by
  constructor
  · intro hafter
    by_contra hsome
    obtain ⟨resource, hresource⟩ := Option.ne_none_iff_exists'.1 hsome
    obtain ⟨hacquired, hreleased⟩ := hsound.held holder resource hresource
    have hkept : ((ledger.acquire holder).release holder).released resource = 0 := by
      rw [released_release, held_acquire, if_pos rfl,
        if_neg fun hnext => Nat.ne_of_gt hacquired (Option.some.inj hnext)]
      exact hreleased
    refine absurd hafter (not_accounted_of_lost ?_ (fun other hother => ?_) hkept)
    · rw [acquired_release]
      exact Nat.lt_succ_of_lt hacquired
    · rw [held_release, held_acquire] at hother
      split_ifs at hother with hne
      exact hne (hsound.unique haccounted hother hresource)
  · intro hnone
    exact (haccounted.acquire hsound hnone).release hsound.acquire

end Exact

/-! References that are kept when their resource is released, and are stale from then on. -/

section Stale

variable {H : Type u}

/-- The holders whose references are not stale, with what they hold. -/
def owned (ledger : Ledger H) (stale : H → Bool) : Ledger H where
  held holder := if stale holder then none else ledger.held holder
  acquired := ledger.acquired
  released := ledger.released

@[simp] theorem held_owned (ledger : Ledger H) (stale : H → Bool) (other : H) :
    (ledger.owned stale).held other = if stale other then none else ledger.held other :=
  rfl

theorem eq_of_held {first second : Ledger H}
    (hheld : ∀ holder, first.held holder = second.held holder)
    (hacquired : first.acquired = second.acquired)
    (hreleased : ∀ resource, first.released resource = second.released resource) :
    first = second := by
  obtain ⟨held, acquired, released⟩ := first
  obtain rfl := hacquired
  obtain rfl : held = second.held := funext hheld
  obtain rfl : released = second.released := funext hreleased
  rfl

variable [DecidableEq H]

/-- The holder releases what it holds, and keeps its reference to it. -/
def free (ledger : Ledger H) (holder : H) : Ledger H where
  held := ledger.held
  acquired := ledger.acquired
  released := (ledger.release holder).released

variable {ledger : Ledger H} {holder : H} (stale : H → Bool)

/-- A reference to something new is not stale, whatever the last one was. -/
theorem owned_acquire : (ledger.acquire holder).owned (Function.update stale holder false) =
    (ledger.owned stale).acquire holder := by
  refine eq_of_held (fun other => ?_) rfl fun _ => rfl
  by_cases hother : other = holder
  · simp [hother, owned]
  · simp [hother]

theorem owned_forget : (ledger.forget holder).owned (Function.update stale holder false) =
    (ledger.owned stale).forget holder := by
  refine eq_of_held (fun other => ?_) rfl fun _ => rfl
  by_cases hother : other = holder
  · simp [hother]
  · simp [hother]

theorem owned_release (hfresh : stale holder = false) :
    (ledger.release holder).owned (Function.update stale holder false) =
      (ledger.owned stale).release holder := by
  have hheld : (ledger.owned stale).held holder = ledger.held holder := by
    simp [hfresh]
  refine eq_of_held (fun other => ?_) ?_ fun resource => ?_
  · by_cases hother : other = holder
    · simp [hother]
    · simp [hother]
  · rw [acquired_release]
    exact acquired_release
  · rw [released_release, hheld]
    exact released_release resource

/-- A resource that is released at once is owned by nobody, although there is a reference
to it. -/
theorem owned_free :
    ((ledger.acquire holder).free holder).owned (Function.update stale holder true) =
      ((ledger.owned stale).acquire holder).release holder := by
  refine eq_of_held (fun other => ?_) ?_ fun resource => ?_
  · by_cases hother : other = holder
    · simp [hother]
    · simp [hother, free]
  · rw [acquired_release]
    rfl
  · have hnext : ((ledger.owned stale).acquire holder).held holder =
        (ledger.acquire holder).held holder := by
      rw [held_acquire, held_acquire, if_pos rfl, if_pos rfl]
      rfl
    rw [released_release, hnext]
    exact released_release resource

end Stale

end Ledger
