/-
The ring buffer shared by two threads: forced pushes of one and pops of the
other, taken apart into single accesses of the shared memory.
-/
import Trifecta.Defs

namespace Trifecta

open RingBuffer

universe u

variable {α : Type u} {size : Nat}

/-- How far the producer is in `FS_RINGBUFFER_PUSH_FORCE`, with its locals. -/
inductive PushForce (α : Type u) (size : Nat)
  | idle
  | headLoaded (value : α) (head : Fin size)
  | slotWritten (value : α) (head : Fin size)
  | headStored (head : Fin size)
  | roomSeen (head : Fin size)
  | fullSeen (head : Fin size)
  | tailLoaded (head tail : Fin size)
deriving DecidableEq

/-- How far the consumer is in `FS_RINGBUFFER_POP`, with its locals. -/
inductive Pop (α : Type u) (size : Nat)
  | idle
  | countSeen
  | tailLoaded (tail : Fin size)
  | slotRead (tail : Fin size) (out : α)
  | tailStored (out : α)
deriving DecidableEq

/-- The ring buffer, both threads, and what has been pushed and obtained so
far. -/
structure SharedRing (α : Type u) (size : Nat) where
  buffer : Fin size → α
  head : Fin size
  tail : Fin size
  count : Nat
  producer : PushForce α size
  consumer : Pop α size
  pushed : List α
  obtained : List α

/-- `atomic_fetch_add(&rb->count, 1)` on 16 bits. -/
def fetchAdd (count : Nat) : Nat := (count + 1) % 2 ^ 16

/-- `atomic_fetch_sub(&rb->count, 1)` on 16 bits. -/
def fetchSub (count : Nat) : Nat := (count + (2 ^ 16 - 1)) % 2 ^ 16

/-- The next access of the producer.  A push that starts is one of `value`. -/
def producerStep (ring : SharedRing α size) (value : α) : SharedRing α size :=
  match ring.producer with
  | .idle => { ring with producer := .headLoaded value ring.head }
  | .headLoaded value head =>
      { ring with
        buffer := Function.update ring.buffer head value
        producer := .slotWritten value head }
  | .slotWritten value head =>
      { ring with
        head := slotFrom head 1
        producer := .headStored head
        pushed := ring.pushed ++ [value] }
  | .headStored head =>
      { ring with producer := if ring.count < size then .roomSeen head else .fullSeen head }
  | .roomSeen _ => { ring with count := fetchAdd ring.count, producer := .idle }
  | .fullSeen head => { ring with producer := .tailLoaded head ring.tail }
  | .tailLoaded _ tail => { ring with tail := slotFrom tail 1, producer := .idle }

/-- The next access of the consumer. -/
def consumerStep (ring : SharedRing α size) : SharedRing α size :=
  match ring.consumer with
  | .idle => { ring with consumer := if 0 < ring.count then .countSeen else .idle }
  | .countSeen => { ring with consumer := .tailLoaded ring.tail }
  | .tailLoaded tail => { ring with consumer := .slotRead tail (ring.buffer tail) }
  | .slotRead tail out => { ring with tail := slotFrom tail 1, consumer := .tailStored out }
  | .tailStored out =>
      { ring with
        count := fetchSub ring.count
        consumer := .idle
        obtained := ring.obtained ++ [out] }

/-- Whose access comes next. -/
inductive RingAccess (α : Type u)
  | producer (value : α)
  | consumer

def ringStep (ring : SharedRing α size) : RingAccess α → SharedRing α size
  | .producer value => producerStep ring value
  | .consumer => consumerStep ring

def ringRun (ring : SharedRing α size) (accesses : List (RingAccess α)) : SharedRing α size :=
  accesses.foldl ringStep ring

/-- `FS_RINGBUFFER_INIT`, with both threads between operations. -/
def ringInit (buffer : Fin size → α) (hsize : 0 < size) : SharedRing α size where
  buffer := buffer
  head := ⟨0, hsize⟩
  tail := ⟨0, hsize⟩
  count := 0
  producer := .idle
  consumer := .idle
  pushed := []
  obtained := []

/-- Between operations the indices agree with the count, and what was obtained
was pushed, in that order and once. -/
def SharedRing.Consistent (ring : SharedRing α size) : Prop :=
  ring.producer = .idle → ring.consumer = .idle →
    ring.head.val = (ring.tail.val + ring.count) % size ∧ ring.count ≤ size ∧
      ring.obtained.Sublist ring.pushed

/-- The slot that the push in progress has written. -/
def PushForce.written : PushForce α size → Option (Fin size)
  | .idle | .headLoaded _ _ => none
  | .slotWritten _ head | .headStored head | .roomSeen head | .fullSeen head
  | .tailLoaded head _ => some head

/-- The pop is between its load of the tail and its store. -/
def Pop.holdsTail : Pop α size → Bool
  | .tailLoaded _ | .slotRead _ _ => true
  | .idle | .countSeen | .tailStored _ => false

/-- The push is between its load of the tail and its store. -/
def PushForce.holdsTail : PushForce α size → Bool
  | .tailLoaded _ _ => true
  | _ => false

/-- The pop does not read a slot that the push in progress has overwritten, and
does not store the tail while the push holds a loaded copy of it. -/
def Pop.Free (push : PushForce α size) : Pop α size → Prop
  | .tailLoaded tail => push.written ≠ some tail
  | .slotRead _ _ => push.holdsTail = false
  | .idle | .countSeen | .tailStored _ => True

/-- Neither thread stores the tail while the other one holds a loaded copy of it,
and no pop reads a slot that the push in progress has overwritten. -/
def Undisturbed (ring : SharedRing α size) : RingAccess α → Prop
  | .producer _ => ring.producer.holdsTail = true → ring.consumer.holdsTail = false
  | .consumer => ring.consumer.Free ring.producer

/-- Every access of the run is undisturbed where it is made. -/
def RunsUndisturbed : SharedRing α size → List (RingAccess α) → Prop
  | _, [] => True
  | ring, access :: later => Undisturbed ring access ∧ RunsUndisturbed (ringStep ring access) later

/-- The push has stored the head and not yet made up for it. -/
def PushForce.uncounted : PushForce α size → Nat
  | .idle | .headLoaded _ _ | .slotWritten _ _ => 0
  | .headStored _ | .roomSeen _ | .fullSeen _ | .tailLoaded _ _ => 1

/-- The pop has stored the tail and not yet made up for it. -/
def Pop.uncounted : Pop α size → Nat
  | .tailStored _ => 1
  | .idle | .countSeen | .tailLoaded _ | .slotRead _ _ => 0

/-- What the pop will hand out and has taken off the ring. -/
def Pop.taken : Pop α size → List α
  | .tailStored out => [out]
  | .idle | .countSeen | .tailLoaded _ | .slotRead _ _ => []

instance (push : PushForce α size) : (pop : Pop α size) → Decidable (pop.Free push)
  | .tailLoaded tail => inferInstanceAs (Decidable (push.written ≠ some tail))
  | .slotRead _ _ => inferInstanceAs (Decidable (push.holdsTail = false))
  | .idle => isTrue trivial
  | .countSeen => isTrue trivial
  | .tailStored _ => isTrue trivial

instance (ring : SharedRing α size) : (access : RingAccess α) → Decidable (Undisturbed ring access)
  | .producer _ => inferInstanceAs
      (Decidable (ring.producer.holdsTail = true → ring.consumer.holdsTail = false))
  | .consumer => inferInstanceAs (Decidable (ring.consumer.Free ring.producer))

instance decidableRunsUndisturbed :
    (ring : SharedRing α size) → (accesses : List (RingAccess α)) →
      Decidable (RunsUndisturbed ring accesses)
  | _, [] => isTrue trivial
  | ring, access :: later =>
      @instDecidableAnd _ _ (inferInstanceAs (Decidable (Undisturbed ring access)))
        (decidableRunsUndisturbed (ringStep ring access) later)

/-- What the producer's locals say. -/
def ProducerFacts (ring : SharedRing α size) : Prop :=
  match ring.producer with
  | .idle => True
  | .headLoaded _ head => head = ring.head
  | .slotWritten value head => head = ring.head ∧ ring.buffer head = value
  | .headStored head | .fullSeen head => slotFrom head 1 = ring.head
  | .roomSeen head => slotFrom head 1 = ring.head ∧ ring.count < size
  | .tailLoaded head tail => slotFrom head 1 = ring.head ∧ tail = ring.tail

/-- What the consumer's locals say, when `moved` elements have left the ring. -/
def ConsumerFacts (ring : SharedRing α size) (moved : Nat) : Prop :=
  match ring.consumer with
  | .idle => True
  | .countSeen | .tailStored _ => 0 < ring.count
  | .tailLoaded tail => 0 < ring.count ∧ tail = ring.tail
  | .slotRead tail out => 0 < ring.count ∧ tail = ring.tail ∧ ring.pushed[moved]? = some out

/-- The first index whose slot still holds what was pushed there. -/
def SharedRing.oldest (ring : SharedRing α size) : Nat :=
  match ring.producer with
  | .slotWritten _ _ => ring.pushed.length + 1 - size
  | _ => ring.pushed.length - size

/-- The indices as numbers that never wrap around: all pushes so far, and the
elements that have left the ring. -/
structure RingInvariant (ring : SharedRing α size) (moved : Nat) : Prop where
  head_eq : ring.head.val = ring.pushed.length % size
  tail_eq : ring.tail.val = moved % size
  balance : moved + ring.count + ring.producer.uncounted =
    ring.pushed.length + ring.consumer.uncounted
  count_le : ring.count ≤ size
  producer : ProducerFacts ring
  consumer : ConsumerFacts ring moved
  slots : ∀ index, ring.oldest ≤ index → index < ring.pushed.length →
    ring.pushed[index]? = some (ring.buffer ⟨index % size, Nat.mod_lt _ ring.head.pos⟩)
  sublist : (ring.obtained ++ ring.consumer.taken).Sublist (ring.pushed.take moved)

theorem slot_ne {first second : Nat} (hless : first < second) (hnear : second < first + size) :
    first % size ≠ second % size := by
  intro hsame
  have hzero := Nat.sub_mod_eq_zero_of_mod_eq hsame.symm
  rw [Nat.mod_eq_of_lt (by omega)] at hzero
  omega

theorem slotFrom_of_mod {slot : Fin size} {index : Nat} (hslot : slot.val = index % size) :
    (slotFrom slot 1).val = (index + 1) % size := by
  rw [slotFrom_val, hslot, Nat.mod_add_mod]

section Steps

variable {ring : SharedRing α size} {moved : Nat}

/-- The elements still on the ring, counting what both operations owe. -/
theorem RingInvariant.moved_le (hinv : RingInvariant ring moved) :
    moved ≤ ring.pushed.length := by
  have hbalance := hinv.balance
  have hconsumer := hinv.consumer
  unfold ConsumerFacts at hconsumer
  cases hat : ring.consumer <;> simp only [hat, Pop.uncounted] at hbalance hconsumer <;> omega

/-- What the producer does to the count and to the history does not touch the
consumer's locals. -/
theorem consumerFacts_of_producer {other : SharedRing α size}
    (hconsumer : ConsumerFacts ring moved) (hsame : other.consumer = ring.consumer)
    (htail : other.tail = ring.tail) (hpushed : ring.pushed <+: other.pushed)
    (hcount : 0 < ring.count → 0 < other.count) : ConsumerFacts other moved := by
  obtain ⟨more, hmore⟩ := hpushed
  unfold ConsumerFacts at hconsumer ⊢
  rw [hsame, htail, ← hmore]
  cases hat : ring.consumer with
  | idle => trivial
  | countSeen =>
      rw [hat] at hconsumer
      exact hcount hconsumer
  | tailLoaded tail =>
      rw [hat] at hconsumer
      exact ⟨hcount hconsumer.1, hconsumer.2⟩
  | slotRead tail out =>
      rw [hat] at hconsumer
      obtain ⟨hpos, htail, hout⟩ := hconsumer
      refine ⟨hcount hpos, htail, ?_⟩
      rw [List.getElem?_append_left (List.getElem?_eq_some_iff.1 hout).1]
      exact hout
  | tailStored out =>
      rw [hat] at hconsumer
      exact hcount hconsumer

theorem producer_headLoaded (hinv : RingInvariant ring moved) (hat : ring.producer = .idle)
    (value : α) : RingInvariant (producerStep ring value) moved := by
  have hbalance := hinv.balance
  have hslots := hinv.slots
  rw [hat] at hbalance
  simp only [SharedRing.oldest, hat] at hslots
  simp only [producerStep, hat]
  exact ⟨hinv.head_eq, hinv.tail_eq, hbalance, hinv.count_le, rfl, hinv.consumer, hslots,
    hinv.sublist⟩

theorem producer_slotWritten (hinv : RingInvariant ring moved) {loaded : α} {head : Fin size}
    (hat : ring.producer = .headLoaded loaded head) (value : α) :
    RingInvariant (producerStep ring value) moved := by
  have hbalance := hinv.balance
  have hslots := hinv.slots
  have hfacts := hinv.producer
  rw [hat] at hbalance
  simp only [SharedRing.oldest, hat] at hslots
  simp only [ProducerFacts, hat] at hfacts
  simp only [producerStep, hat]
  refine ⟨hinv.head_eq, hinv.tail_eq, hbalance, hinv.count_le, ⟨hfacts, ?_⟩, hinv.consumer, ?_,
    hinv.sublist⟩
  · exact Function.update_self head loaded ring.buffer
  · intro index hold hindex
    simp only [SharedRing.oldest] at hold hindex
    have hne : (⟨index % size, Nat.mod_lt _ ring.head.pos⟩ : Fin size) ≠ head := by
      rw [hfacts]
      intro heq
      have hval := congrArg Fin.val heq
      rw [hinv.head_eq] at hval
      exact slot_ne hindex (by omega) hval
    simp only [Function.update_of_ne hne]
    exact hslots index (by omega) hindex

theorem producer_headStored (hinv : RingInvariant ring moved) {loaded : α} {head : Fin size}
    (hat : ring.producer = .slotWritten loaded head) (value : α) :
    RingInvariant (producerStep ring value) moved := by
  have hbalance := hinv.balance
  have hslots := hinv.slots
  have hfacts := hinv.producer
  have hmoved := hinv.moved_le
  rw [hat] at hbalance
  simp only [SharedRing.oldest, hat] at hslots
  simp only [ProducerFacts, hat] at hfacts
  obtain ⟨rfl, hvalue⟩ := hfacts
  simp only [producerStep, hat]
  refine ⟨?_, hinv.tail_eq, ?_, hinv.count_le, rfl, ?_, ?_, ?_⟩
  · rw [slotFrom_of_mod hinv.head_eq, List.length_append, List.length_singleton]
  · simp only [PushForce.uncounted, List.length_append, List.length_singleton] at hbalance ⊢
    omega
  · exact consumerFacts_of_producer hinv.consumer rfl rfl (List.prefix_append _ _) id
  · intro index hold hindex
    simp only [SharedRing.oldest, List.length_append, List.length_singleton] at hold hindex
    rcases Nat.lt_succ_iff_lt_or_eq.1 hindex with hlt | rfl
    · rw [List.getElem?_append_left hlt]
      exact hslots index hold hlt
    · rw [List.getElem?_append_right (Nat.le_refl _), Nat.sub_self, List.getElem?_cons_zero,
        ← hvalue]
      exact congrArg (fun slot => some (ring.buffer slot)) (Fin.ext hinv.head_eq)
  · rw [List.take_append_of_le_length hmoved]
    exact hinv.sublist

theorem producer_countLoaded (hinv : RingInvariant ring moved) {head : Fin size}
    (hat : ring.producer = .headStored head) (value : α) :
    RingInvariant (producerStep ring value) moved := by
  have hbalance := hinv.balance
  have hslots := hinv.slots
  have hfacts := hinv.producer
  rw [hat] at hbalance
  simp only [SharedRing.oldest, hat] at hslots
  simp only [ProducerFacts, hat] at hfacts
  simp only [producerStep, hat]
  split_ifs with hroom
  · exact ⟨hinv.head_eq, hinv.tail_eq, hbalance, hinv.count_le, ⟨hfacts, hroom⟩, hinv.consumer,
      hslots, hinv.sublist⟩
  · exact ⟨hinv.head_eq, hinv.tail_eq, hbalance, hinv.count_le, hfacts, hinv.consumer, hslots,
      hinv.sublist⟩

theorem producer_counted (hsize : size < 2 ^ 16) (hinv : RingInvariant ring moved)
    {head : Fin size} (hat : ring.producer = .roomSeen head) (value : α) :
    RingInvariant (producerStep ring value) moved := by
  have hbalance := hinv.balance
  have hslots := hinv.slots
  have hfacts := hinv.producer
  rw [hat] at hbalance
  simp only [SharedRing.oldest, hat] at hslots
  simp only [ProducerFacts, hat] at hfacts
  have hadd : fetchAdd ring.count = ring.count + 1 := Nat.mod_eq_of_lt (by omega)
  simp only [producerStep, hat, hadd]
  refine ⟨hinv.head_eq, hinv.tail_eq, ?_, hfacts.2, trivial, ?_, hslots, hinv.sublist⟩
  · simp only [PushForce.uncounted] at hbalance ⊢
    omega
  · exact consumerFacts_of_producer hinv.consumer rfl rfl List.prefix_rfl fun _ => Nat.succ_pos _

theorem producer_tailLoaded (hinv : RingInvariant ring moved) {head : Fin size}
    (hat : ring.producer = .fullSeen head) (value : α) :
    RingInvariant (producerStep ring value) moved := by
  have hbalance := hinv.balance
  have hslots := hinv.slots
  have hfacts := hinv.producer
  rw [hat] at hbalance
  simp only [SharedRing.oldest, hat] at hslots
  simp only [ProducerFacts, hat] at hfacts
  simp only [producerStep, hat]
  exact ⟨hinv.head_eq, hinv.tail_eq, hbalance, hinv.count_le, ⟨hfacts, rfl⟩, hinv.consumer, hslots,
    hinv.sublist⟩

/-- The oldest element is given up while no pop holds the tail. -/
theorem producer_tailStored (hinv : RingInvariant ring moved) {head tail : Fin size}
    (hat : ring.producer = .tailLoaded head tail) (hfree : ring.consumer.holdsTail = false)
    (value : α) : RingInvariant (producerStep ring value) (moved + 1) := by
  have hbalance := hinv.balance
  have hslots := hinv.slots
  have hfacts := hinv.producer
  have hconsumer := hinv.consumer
  rw [hat] at hbalance
  simp only [SharedRing.oldest, hat] at hslots
  simp only [ProducerFacts, hat] at hfacts
  obtain ⟨_, rfl⟩ := hfacts
  simp only [producerStep, hat]
  refine ⟨hinv.head_eq, slotFrom_of_mod hinv.tail_eq, ?_, hinv.count_le, trivial, ?_, hslots, ?_⟩
  · simp only [PushForce.uncounted] at hbalance ⊢
    omega
  · unfold ConsumerFacts at hconsumer ⊢
    cases hpop : ring.consumer <;> simp only [hpop, Pop.holdsTail] at hconsumer hfree ⊢
    · exact hconsumer
    · exact absurd hfree (by decide)
    · exact absurd hfree (by decide)
    · exact hconsumer
  · exact hinv.sublist.trans (List.take_sublist_take_left (Nat.le_succ moved))

theorem consumer_started (hinv : RingInvariant ring moved) (hat : ring.consumer = .idle) :
    RingInvariant (consumerStep ring) moved := by
  have hbalance := hinv.balance
  have hsublist := hinv.sublist
  rw [hat] at hbalance hsublist
  simp only [consumerStep, hat]
  split_ifs with hcount
  · exact ⟨hinv.head_eq, hinv.tail_eq, hbalance, hinv.count_le, hinv.producer, hcount, hinv.slots,
      hsublist⟩
  · exact ⟨hinv.head_eq, hinv.tail_eq, hbalance, hinv.count_le, hinv.producer, trivial, hinv.slots,
      hsublist⟩

theorem consumer_tailLoaded (hinv : RingInvariant ring moved) (hat : ring.consumer = .countSeen) :
    RingInvariant (consumerStep ring) moved := by
  have hbalance := hinv.balance
  have hsublist := hinv.sublist
  have hfacts := hinv.consumer
  rw [hat] at hbalance hsublist
  rw [ConsumerFacts, hat] at hfacts
  simp only [consumerStep, hat]
  exact ⟨hinv.head_eq, hinv.tail_eq, hbalance, hinv.count_le, hinv.producer, ⟨hfacts, rfl⟩,
    hinv.slots, hsublist⟩

/-- The oldest element is overwritten only by a push in progress. -/
theorem oldest_le_of_not_written (hinv : RingInvariant ring moved)
    (hconsumer : ring.consumer.uncounted = 0) (hfree : ring.producer.written ≠ some ring.tail) :
    ring.oldest ≤ moved := by
  have hbalance := hinv.balance
  have hcount := hinv.count_le
  have hproducer := hinv.producer
  have hhead := hinv.head_eq
  have htail := hinv.tail_eq
  rw [hconsumer] at hbalance
  -- otherwise the slot of the last push would be the one at the tail
  have hslot : ∀ head : Fin size, ring.producer.written = some head → head.val ≠ moved % size := by
    intro head hwritten heq
    exact hfree (by rw [hwritten, Fin.ext (heq.trans htail.symm)])
  have hlast : ∀ head : Fin size, slotFrom head 1 = ring.head →
      ring.pushed.length = moved + size + 1 → head.val = moved % size := by
    intro head hnext hlength
    have hval := congrArg Fin.val hnext
    rw [slotFrom_val, hhead, hlength] at hval
    have hmod : head.val % size = (moved + size) % size :=
      Nat.ModEq.add_right_cancel' 1 hval
    rw [Nat.mod_eq_of_lt head.isLt, Nat.add_mod_right] at hmod
    exact hmod
  unfold ProducerFacts at hproducer
  cases hat : ring.producer with
  | idle | headLoaded _ _ =>
      simp only [SharedRing.oldest, hat, PushForce.uncounted] at hbalance ⊢
      omega
  | slotWritten value head =>
      simp only [SharedRing.oldest, hat, PushForce.uncounted] at hbalance hproducer ⊢
      have hne := hslot head (by rw [hat]; rfl)
      rcases Nat.lt_or_ge ring.count size with hroom | hfull
      · omega
      · have hlength : ring.pushed.length = moved + size := by omega
        rw [hproducer.1, hhead, hlength, Nat.add_mod_right] at hne
        exact absurd rfl hne
  | headStored head | fullSeen head =>
      simp only [SharedRing.oldest, hat, PushForce.uncounted] at hbalance hproducer ⊢
      have hne := hslot head (by rw [hat]; rfl)
      rcases Nat.lt_or_ge ring.count size with hroom | hfull
      · omega
      · exact absurd (hlast head hproducer (by omega)) hne
  | roomSeen head =>
      simp only [SharedRing.oldest, hat, PushForce.uncounted] at hbalance hproducer ⊢
      omega
  | tailLoaded head tail =>
      simp only [SharedRing.oldest, hat, PushForce.uncounted] at hbalance hproducer ⊢
      have hne := hslot head (by rw [hat]; rfl)
      rcases Nat.lt_or_ge ring.count size with hroom | hfull
      · omega
      · exact absurd (hlast head hproducer.1 (by omega)) hne

theorem consumer_slotRead (hinv : RingInvariant ring moved) {tail : Fin size}
    (hat : ring.consumer = .tailLoaded tail) (hfree : ring.producer.written ≠ some tail) :
    RingInvariant (consumerStep ring) moved := by
  have hbalance := hinv.balance
  have hsublist := hinv.sublist
  have hfacts := hinv.consumer
  rw [hat] at hbalance hsublist
  rw [ConsumerFacts, hat] at hfacts
  obtain ⟨hcount, rfl⟩ := hfacts
  have hread : ring.pushed[moved]? = some (ring.buffer ring.tail) := by
    rw [hinv.slots moved (oldest_le_of_not_written hinv (by rw [hat]; rfl) hfree)]
    · exact congrArg (fun slot => some (ring.buffer slot)) (Fin.ext hinv.tail_eq.symm)
    · simp only [Pop.uncounted] at hbalance
      omega
  simp only [consumerStep, hat]
  exact ⟨hinv.head_eq, hinv.tail_eq, hbalance, hinv.count_le, hinv.producer, ⟨hcount, rfl, hread⟩,
    hinv.slots, hsublist⟩

theorem consumer_tailStored (hinv : RingInvariant ring moved) {tail : Fin size} {out : α}
    (hat : ring.consumer = .slotRead tail out) (hfree : ring.producer.holdsTail = false) :
    RingInvariant (consumerStep ring) (moved + 1) := by
  have hbalance := hinv.balance
  have hsublist := hinv.sublist
  have hfacts := hinv.consumer
  have hproducer := hinv.producer
  rw [hat] at hbalance hsublist
  rw [ConsumerFacts, hat] at hfacts
  obtain ⟨hcount, rfl, hout⟩ := hfacts
  simp only [consumerStep, hat]
  refine ⟨hinv.head_eq, slotFrom_of_mod hinv.tail_eq, ?_, hinv.count_le, ?_, hcount, hinv.slots, ?_⟩
  · simp only [Pop.uncounted] at hbalance ⊢
    omega
  · unfold ProducerFacts at hproducer ⊢
    cases hpush : ring.producer with
    | tailLoaded head tail =>
        rw [hpush] at hfree
        exact absurd hfree (by simp [PushForce.holdsTail])
    | _ =>
        rw [hpush] at hproducer
        exact hproducer
  · simp only [Pop.taken, List.append_nil] at hsublist ⊢
    rw [List.take_add_one, hout]
    exact List.Sublist.append hsublist (List.Sublist.refl _)

theorem consumer_counted (hsize : size < 2 ^ 16) (hinv : RingInvariant ring moved) {out : α}
    (hat : ring.consumer = .tailStored out) : RingInvariant (consumerStep ring) moved := by
  have hbalance := hinv.balance
  have hsublist := hinv.sublist
  have hfacts := hinv.consumer
  have hcount := hinv.count_le
  have hproducer := hinv.producer
  rw [hat] at hbalance hsublist
  rw [ConsumerFacts, hat] at hfacts
  simp only at hfacts
  have hsub : fetchSub ring.count = ring.count - 1 := by
    rw [fetchSub, show ring.count + (2 ^ 16 - 1) = ring.count - 1 + 2 ^ 16 by omega,
      Nat.add_mod_right, Nat.mod_eq_of_lt (by omega)]
  simp only [consumerStep, hat, hsub]
  refine ⟨hinv.head_eq, hinv.tail_eq, ?_, (Nat.sub_le _ _).trans hcount, ?_, trivial,
    hinv.slots, ?_⟩
  · simp only [Pop.uncounted] at hbalance ⊢
    omega
  · unfold ProducerFacts at hproducer ⊢
    cases hpush : ring.producer with
    | roomSeen head =>
        rw [hpush] at hproducer
        exact ⟨hproducer.1, lt_of_le_of_lt (Nat.sub_le _ _) hproducer.2⟩
    | _ =>
        rw [hpush] at hproducer
        exact hproducer
  · simpa only [Pop.taken, List.append_nil] using hsublist

/-- An undisturbed access keeps the invariant. -/
theorem ringStep_invariant (hsize : size < 2 ^ 16) (hinv : RingInvariant ring moved)
    {access : RingAccess α} (hfree : Undisturbed ring access) :
    ∃ moved', RingInvariant (ringStep ring access) moved' := by
  cases access with
  | producer value =>
      cases hat : ring.producer with
      | idle => exact ⟨moved, producer_headLoaded hinv hat value⟩
      | headLoaded loaded head => exact ⟨moved, producer_slotWritten hinv hat value⟩
      | slotWritten loaded head => exact ⟨moved, producer_headStored hinv hat value⟩
      | headStored head => exact ⟨moved, producer_countLoaded hinv hat value⟩
      | roomSeen head => exact ⟨moved, producer_counted hsize hinv hat value⟩
      | fullSeen head => exact ⟨moved, producer_tailLoaded hinv hat value⟩
      | tailLoaded head tail =>
          exact ⟨moved + 1, producer_tailStored hinv hat (hfree (by rw [hat]; rfl)) value⟩
  | consumer =>
      cases hat : ring.consumer with
      | idle => exact ⟨moved, consumer_started hinv hat⟩
      | countSeen => exact ⟨moved, consumer_tailLoaded hinv hat⟩
      | tailLoaded tail =>
          rw [Undisturbed, hat] at hfree
          exact ⟨moved, consumer_slotRead hinv hat hfree⟩
      | slotRead tail out =>
          rw [Undisturbed, hat] at hfree
          exact ⟨moved + 1, consumer_tailStored hinv hat hfree⟩
      | tailStored out => exact ⟨moved, consumer_counted hsize hinv hat⟩

theorem RingInvariant.consistent (hinv : RingInvariant ring moved) : ring.Consistent := by
  intro hproducer hconsumer
  have hbalance := hinv.balance
  have hsublist := hinv.sublist
  simp only [hproducer, hconsumer, PushForce.uncounted, Pop.uncounted, Pop.taken,
    List.append_nil, Nat.add_zero] at hbalance hsublist
  refine ⟨?_, hinv.count_le, hsublist.trans (List.take_sublist _ _)⟩
  rw [hinv.head_eq, hinv.tail_eq, Nat.mod_add_mod, hbalance]

end Steps

theorem ringInit_invariant (buffer : Fin size → α) (hsize : 0 < size) :
    RingInvariant (ringInit buffer hsize) 0 where
  head_eq := (Nat.zero_mod size).symm
  tail_eq := (Nat.zero_mod size).symm
  balance := rfl
  count_le := Nat.zero_le size
  producer := trivial
  consumer := trivial
  slots := fun _ _ hindex => absurd hindex (Nat.not_lt_zero _)
  sublist := List.Sublist.refl _

theorem ringRun_invariant (hsize : size < 2 ^ 16) (accesses : List (RingAccess α))
    {ring : SharedRing α size} {moved : Nat} (hinv : RingInvariant ring moved)
    (hfree : RunsUndisturbed ring accesses) :
    ∃ moved', RingInvariant (ringRun ring accesses) moved' := by
  induction accesses generalizing ring moved with
  | nil => exact ⟨moved, hinv⟩
  | cons access later ih =>
      obtain ⟨next, hnext⟩ := ringStep_invariant hsize hinv hfree.1
      exact ih hnext hfree.2

theorem RunsUndisturbed.front {front accesses : List (RingAccess α)}
    (hfront : front <+: accesses) {ring : SharedRing α size}
    (hfree : RunsUndisturbed ring accesses) : RunsUndisturbed ring front := by
  induction front generalizing accesses ring with
  | nil => trivial
  | cons access later ih =>
      obtain ⟨more, rfl⟩ := hfront
      exact ⟨hfree.1, ih (List.prefix_append later more) hfree.2⟩

/-- The packet queue stays consistent in every run in which no tail is stored
over a loaded copy of it and no pop reads a slot that is being overwritten. -/
theorem packetRing_consistent (buffer : Fin fsMaxPacketQueueLength → FsPacketUnion)
    (accesses : List (RingAccess FsPacketUnion))
    (hfree : RunsUndisturbed (ringInit buffer (by decide)) accesses) :
    ∀ front, front <+: accesses →
      (ringRun (ringInit buffer (by decide)) front).Consistent := by
  intro front hfront
  have hsize : 0 < fsMaxPacketQueueLength := by decide
  obtain ⟨moved, hinv⟩ := ringRun_invariant (by decide) front (ringInit_invariant buffer hsize)
    (RunsUndisturbed.front hfront hfree)
  exact hinv.consistent

/-- The accesses of whole pushes of one packet. -/
def wholePushes (pushes : Nat) : List (RingAccess FsPacketUnion) :=
  List.replicate (5 * pushes) (.producer (.zero 185))

/-- A pop that overlaps with the second of two pushes. -/
def overlappingPop : List (RingAccess FsPacketUnion) :=
  wholePushes 1 ++ [.consumer, .consumer] ++ wholePushes 1 ++ [.consumer, .consumer, .consumer]

theorem packetRing_consistent_overlap :
    (ringRun (ringInit (fun _ => .zero 185) (by decide) :
      SharedRing FsPacketUnion fsMaxPacketQueueLength) overlappingPop).Consistent :=
  packetRing_consistent (fun _ => .zero 185) overlappingPop (by decide) overlappingPop
    List.prefix_rfl

/-- On a full ring both threads load the tail and then store its successor: one
of the two moves is lost. -/
theorem packetRing_lost_tail :
    ¬ ∀ accesses : List (RingAccess FsPacketUnion),
      (ringRun (ringInit (fun _ => .zero 185) (by decide) :
        SharedRing FsPacketUnion fsMaxPacketQueueLength) accesses).Consistent := by
  intro hconsistent
  have hrun := hconsistent (wholePushes fsMaxPacketQueueLength ++ [.consumer, .consumer] ++
    wholePushes 1 ++ [.consumer, .consumer, .consumer, .producer (.zero 185)])
  have hidle := hrun (by decide +kernel) (by decide +kernel)
  revert hidle
  decide +kernel

end Trifecta
