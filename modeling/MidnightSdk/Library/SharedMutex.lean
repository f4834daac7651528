import Mathlib.Data.Finset.Basic
import Mathlib.Logic.Function.Basic

/-!
# A mutex with exclusive and shared holders

`std::shared_mutex`: one thread holds it alone, or any number share it. It knows
nothing of the places its threads stand at; that both agree is an invariant which
every lock and every release keeps.
-/

namespace MidnightSdk

structure SharedMutex (ι : Type) where
  exclusive : Option ι
  shared : Finset ι

namespace SharedMutex

variable {ι Place : Type} [DecidableEq ι]

def free : SharedMutex ι := ⟨none, ∅⟩

variable (m : SharedMutex ι)

def canLock : Bool := m.exclusive = none ∧ m.shared = ∅

def canLockShared : Bool := m.exclusive = none

def lock (i : ι) : SharedMutex ι := { m with exclusive := some i }

def unlock : SharedMutex ι := { m with exclusive := none }

def lockShared (i : ι) : SharedMutex ι := { m with shared := insert i m.shared }

def unlockShared (i : ι) : SharedMutex ι := { m with shared := m.shared.erase i }

/-- The thread holds the mutex, alone or with others. -/
def Holds (i : ι) : Prop := m.exclusive = some i ∨ i ∈ m.shared

/-- Which places hold the mutex, and how. -/
structure Zones (Place : Type) where
  alone : Place → Bool
  sharing : Place → Bool

/-- The mutex has down exactly the threads whose places hold it. -/
structure Agrees (zones : Zones Place) (places : ι → Place) : Prop where
  exclusive : ∀ i, m.exclusive = some i ↔ zones.alone (places i) = true
  shared : ∀ i, i ∈ m.shared ↔ zones.sharing (places i) = true

variable {m} {zones : Zones Place} {places : ι → Place} {i : ι} {place : Place}

omit [DecidableEq ι] in
theorem agrees_free (halone : ∀ i, zones.alone (places i) = false)
    (hshared : ∀ i, zones.sharing (places i) = false) : free.Agrees zones places where
  exclusive i := by simp [free, halone]
  shared i := by simp [free, hshared]

namespace Agrees

omit [DecidableEq ι] in
theorem holds_iff (h : m.Agrees zones places) :
    m.Holds i ↔ zones.alone (places i) = true ∨ zones.sharing (places i) = true :=
  or_congr (h.exclusive i) (h.shared i)

/-- The next place holds what the last one held. -/
theorem goOn (h : m.Agrees zones places) (halone : zones.alone place = zones.alone (places i))
    (hsharing : zones.sharing place = zones.sharing (places i)) :
    m.Agrees zones (Function.update places i place) := by
  constructor
  · intro j
    by_cases hj : j = i
    · subst hj
      rw [Function.update_self, halone, h.exclusive]
    · rw [Function.update_of_ne hj, h.exclusive]
  · intro j
    by_cases hj : j = i
    · subst hj
      rw [Function.update_self, hsharing, h.shared]
    · rw [Function.update_of_ne hj, h.shared]

theorem lock (h : m.Agrees zones places) (hcan : m.canLock = true)
    (halone : zones.alone place = true) (hsharing : zones.sharing place = false) :
    (m.lock i).Agrees zones (Function.update places i place) := by
  obtain ⟨nobody, noSharer⟩ := of_decide_eq_true hcan
  constructor
  · intro j
    by_cases hj : j = i
    · subst hj
      simp [SharedMutex.lock, halone]
    · have other := h.exclusive j
      rw [nobody] at other
      simp only [SharedMutex.lock, Function.update_of_ne hj, Option.some.injEq]
      exact ⟨fun hi => absurd hi.symm hj, fun halone => nomatch other.mpr halone⟩
  · intro j
    by_cases hj : j = i
    · subst hj
      simp [SharedMutex.lock, noSharer, hsharing]
    · rw [Function.update_of_ne hj, ← h.shared]
      rfl

theorem unlock (h : m.Agrees zones places) (hi : zones.alone (places i) = true)
    (halone : zones.alone place = false)
    (hsharing : zones.sharing place = zones.sharing (places i)) :
    m.unlock.Agrees zones (Function.update places i place) := by
  constructor
  · intro j
    by_cases hj : j = i
    · subst hj
      simp [SharedMutex.unlock, halone]
    · have other := h.exclusive j
      rw [(h.exclusive i).mpr hi, Option.some.injEq] at other
      simp only [SharedMutex.unlock, Function.update_of_ne hj]
      exact ⟨nofun, fun halone => absurd (other.mpr halone).symm hj⟩
  · intro j
    by_cases hj : j = i
    · subst hj
      rw [Function.update_self, hsharing, ← h.shared]
      rfl
    · rw [Function.update_of_ne hj, ← h.shared]
      rfl

theorem lockShared (h : m.Agrees zones places)
    (halone : zones.alone place = zones.alone (places i)) (hsharing : zones.sharing place = true) :
    (m.lockShared i).Agrees zones (Function.update places i place) := by
  constructor
  · intro j
    by_cases hj : j = i
    · subst hj
      rw [Function.update_self, halone, ← h.exclusive]
      rfl
    · rw [Function.update_of_ne hj, ← h.exclusive]
      rfl
  · intro j
    by_cases hj : j = i
    · subst hj
      simp [SharedMutex.lockShared, hsharing]
    · simp [SharedMutex.lockShared, hj, h.shared]

theorem unlockShared (h : m.Agrees zones places)
    (halone : zones.alone place = zones.alone (places i)) (hsharing : zones.sharing place = false) :
    (m.unlockShared i).Agrees zones (Function.update places i place) := by
  constructor
  · intro j
    by_cases hj : j = i
    · subst hj
      rw [Function.update_self, halone, ← h.exclusive]
      rfl
    · rw [Function.update_of_ne hj, ← h.exclusive]
      rfl
  · intro j
    by_cases hj : j = i
    · subst hj
      simp [SharedMutex.unlockShared, hsharing]
    · simp [SharedMutex.unlockShared, hj, h.shared]

end Agrees

end SharedMutex

end MidnightSdk
