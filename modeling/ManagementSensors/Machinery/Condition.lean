import Mathlib.Data.List.Basic
import Mathlib.Data.List.Perm.Basic

/-!
# Machinery/Condition — a condition variable, and when no thread sleeps in vain

    running ──wait──▸ asleep ──notify, or for no reason──▸ woken ──the mutex──▸ running

Threads wait until there is a unit of something.  Whoever adds a unit notifies one of them; whoever has
been woken takes a unit, finds none left, or waits again.  A notification is not lost as long as the
units there are do not outnumber the woken threads while any thread is asleep (`Served`).
-/

namespace Machinery

/-- **A condition variable**: who waits on it, and who has been woken and has not got the mutex yet. -/
structure Condition (κ : Type*) where
  asleep : List κ := []
  woken : List κ := []

namespace Condition

variable {κ : Type*}

/-- All that are in a wait. -/
def threads (c : Condition κ) : List κ := c.asleep ++ c.woken

/-- A thread waits. -/
def wait (c : Condition κ) (k : κ) : Condition κ := { c with asleep := k :: c.asleep }

/-- `notify_all`. -/
def notifyAll (c : Condition κ) : Condition κ := ⟨[], c.asleep ++ c.woken⟩

section Threads

variable [DecidableEq κ]

/-- A thread is woken. -/
def wake (c : Condition κ) (k : κ) : Condition κ := ⟨c.asleep.erase k, k :: c.woken⟩

/-- `notify_one`: it wakes one of the threads that are asleep, if there are any. -/
def notifyOne (c : Condition κ) : Option κ → Option (Condition κ)
  | none => if c.asleep.isEmpty then some c else none
  | some k => if k ∈ c.asleep then some (c.wake k) else none

/-- A woken thread has got the mutex. -/
def goOn (c : Condition κ) (k : κ) : Condition κ := { c with woken := c.woken.erase k }

/-- A thread that is asleep has got the mutex, its time being over. -/
def giveUp (c : Condition κ) (k : κ) : Condition κ := { c with asleep := c.asleep.erase k }

end Threads

/-- **No thread sleeps in vain**: while one is asleep, there are as many woken threads as units. -/
def Served (n : ℕ) (c : Condition κ) : Prop := c.asleep ≠ [] → n ≤ c.woken.length

variable {c c' : Condition κ} {k : κ} {m n : ℕ} {next : Option κ}

/-! ## Who waits -/

theorem threads_wait : (c.wait k).threads = k :: c.threads := rfl

theorem woken_wait : (c.wait k).woken = c.woken := rfl

section Threads

variable [DecidableEq κ]

theorem threads_wake (h : k ∈ c.asleep) : (c.wake k).threads.Perm c.threads :=
  List.perm_middle.trans (((List.perm_cons_erase h).symm).append_right c.woken)

/-- What `notify_one` has done. -/
theorem notifyOne_eq_some (h : c.notifyOne next = some c') :
    c.asleep = [] ∧ c' = c ∨ ∃ k ∈ c.asleep, c' = c.wake k := by
  cases next with
  | none =>
    rw [notifyOne] at h
    split at h
    case isTrue hempty =>
      cases h
      exact Or.inl ⟨List.isEmpty_iff.mp hempty, rfl⟩
    case isFalse => cases h
  | some k =>
    rw [notifyOne] at h
    split at h
    case isTrue hk =>
      cases h
      exact Or.inr ⟨k, hk, rfl⟩
    case isFalse => cases h

/-- There is always one to notify, or none to be notified. -/
theorem exists_notifyOne (c : Condition κ) : ∃ next c', c.notifyOne next = some c' := by
  cases hc : c.asleep with
  | nil => exact ⟨none, c, by simp [notifyOne, hc]⟩
  | cons k ks => exact ⟨some k, c.wake k, by simp [notifyOne, hc]⟩

theorem threads_notifyOne (h : c.notifyOne next = some c') : c'.threads.Perm c.threads := by
  rcases notifyOne_eq_some h with ⟨-, rfl⟩ | ⟨k, hk, rfl⟩
  · exact List.Perm.refl _
  · exact threads_wake hk

theorem woken_notifyOne (h : c.notifyOne next = some c') :
    c'.woken.length ≤ c.woken.length + 1 := by
  rcases notifyOne_eq_some h with ⟨-, rfl⟩ | ⟨k, -, rfl⟩
  · exact Nat.le_succ _
  · exact Nat.le_refl _

theorem woken_goOn (h : k ∈ c.woken) : (c.goOn k).woken.length + 1 = c.woken.length := by
  rw [goOn, List.length_erase_of_mem h]
  have hpos := List.length_pos_of_mem h
  omega

theorem threads_goOn (h : k ∈ c.woken) : c.threads.Perm (k :: (c.goOn k).threads) :=
  ((List.perm_cons_erase h).append_left c.asleep).trans List.perm_middle

theorem threads_giveUp (h : k ∈ c.asleep) : c.threads.Perm (k :: (c.giveUp k).threads) :=
  (List.perm_cons_erase h).append_right c.woken

end Threads

/-! ## No thread sleeps in vain -/

theorem served_zero (c : Condition κ) : Served 0 c := fun _ => Nat.zero_le _

theorem served_of_asleep (h : c.asleep = []) : Served n c := fun hne => absurd h hne

theorem Served.mono (h : Served n c) (hmn : m ≤ n) : Served m c := fun hne =>
  Nat.le_trans hmn (h hne)

theorem served_notifyAll : Served n c.notifyAll := served_of_asleep rfl

section Threads

variable [DecidableEq κ]

/-- **A unit more, and one notified.** -/
theorem Served.wake (h : Served n c) (hk : k ∈ c.asleep) : Served (n + 1) (c.wake k) := fun _ =>
  Nat.succ_le_succ (h (List.ne_nil_of_mem hk))

theorem Served.notifyOne (h : Served n c) (hnotify : c.notifyOne next = some c') :
    Served (n + 1) c' := by
  rcases notifyOne_eq_some hnotify with ⟨hempty, rfl⟩ | ⟨k, hk, rfl⟩
  · exact served_of_asleep hempty
  · exact h.wake hk

/-- **A unit less, and one that has gone on.** -/
theorem Served.goOn (h : Served (n + 1) c) (hk : k ∈ c.woken) : Served n (c.goOn k) := fun hne => by
  have hlen := h hne
  rw [Condition.goOn, List.length_erase_of_mem hk]
  omega

theorem Served.giveUp (h : Served n c) : Served n (c.giveUp k) := fun hne =>
  h fun hnil => hne (by rw [Condition.giveUp, hnil, List.erase_nil])

end Threads

/-- **Who sleeps while there is a unit** is not alone: somebody has been woken. -/
theorem Served.exists_woken (h : Served n c) (hn : n ≠ 0) (hk : k ∈ c.threads) : ∃ j, j ∈ c.woken := by
  rcases List.mem_append.mp hk with hasleep | hwoken
  · have hlen := h (List.ne_nil_of_mem hasleep)
    exact List.exists_mem_of_length_pos (by omega)
  · exact ⟨k, hwoken⟩

end Condition

end Machinery
