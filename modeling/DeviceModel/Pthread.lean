import Mathlib.Logic.Basic

/-!
# The pthread shim

`bhyve/pthread.c` replaces the pthread library: there is one thread, a mutex is a
flag, and the condition calls do nothing. The two assertions of the shim are
recorded and not enforced: `sound` stays true as long as none has failed on this
mutex, and the call goes on as it does when assertions are compiled out. So the
lock discipline is a statement about `sound`, and every other statement reads the
mutexes as no-ops.
-/

namespace DeviceModel

/-- `pthread_mutex_t`. -/
structure PthreadMutex where
  /-- the flag itself -/
  lock : Nat
  /-- no assertion of the shim has failed on this mutex -/
  sound : Bool
  deriving DecidableEq, Repr

/-- `pthread_mutex_init`. -/
def pthreadMutexInit : PthreadMutex := ⟨0, true⟩

/-- `pthread_mutex_lock`: `assert(mutex->lock == 0)`, then take it. -/
def pthreadMutexLock (m : PthreadMutex) : PthreadMutex :=
  { lock := 1, sound := m.sound && m.lock == 0 }

/-- `pthread_mutex_unlock`: `assert(mutex->lock == 1)`, then release it. -/
def pthreadMutexUnlock (m : PthreadMutex) : PthreadMutex :=
  { lock := 0, sound := m.sound && m.lock == 1 }

namespace PthreadMutex

/-- Nobody holds the mutex, and no assertion has failed on it. -/
def Free (m : PthreadMutex) : Prop := m.lock = 0 ∧ m.sound = true

/-- The mutex is held, and no assertion has failed on it. -/
def Held (m : PthreadMutex) : Prop := m.lock = 1 ∧ m.sound = true

theorem free_init : Free pthreadMutexInit := ⟨rfl, rfl⟩

theorem Free.lock {m : PthreadMutex} (h : m.Free) : (pthreadMutexLock m).Held := by
  obtain ⟨hl, hs⟩ := h
  exact ⟨rfl, by simp [pthreadMutexLock, hl, hs]⟩

theorem Held.unlock {m : PthreadMutex} (h : m.Held) : (pthreadMutexUnlock m).Free := by
  obtain ⟨hl, hs⟩ := h
  exact ⟨rfl, by simp [pthreadMutexUnlock, hl, hs]⟩

/-- A lock and an unlock around a section that leaves the mutex alone. -/
theorem Free.lock_unlock {m : PthreadMutex} (h : m.Free) :
    (pthreadMutexUnlock (pthreadMutexLock m)).Free :=
  h.lock.unlock

/-- Locking and unlocking a mutex that nobody holds changes nothing. -/
theorem unlock_lock {m : PthreadMutex} (h : m.lock = 0) :
    pthreadMutexUnlock (pthreadMutexLock m) = m := by
  obtain ⟨lock, sound⟩ := m
  have hlock : lock = 0 := h
  subst hlock
  simp [pthreadMutexLock, pthreadMutexUnlock]

/-- Taking a mutex that is held fails the assertion of `pthread_mutex_lock`. -/
theorem Held.lock_sound {m : PthreadMutex} (h : m.Held) : (pthreadMutexLock m).sound = false := by
  simp [pthreadMutexLock, h.1]

theorem unlock_sound_of_sound {m : PthreadMutex} (h : (pthreadMutexUnlock m).sound = true) :
    m.sound = true := by
  simp only [pthreadMutexUnlock, Bool.and_eq_true] at h
  exact h.1

end PthreadMutex

end DeviceModel
