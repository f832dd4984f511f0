import Mathlib.Algebra.Order.BigOperators.Group.Finset
import BlackboxExporter.Icmp.Sequence

/-! What `icmpSequenceMutex` guarantees the `probeICMP` runs of `icmp.go` in
every interleaving of their steps of `getICMPSequence`.

Safety: at most one run is between `Lock` and the deferred `Unlock`, no other
run moves while the mutex is held, and no increment of `icmpSequence++` is
lost although it is a read and a write: the counter always counts the runs
that have written theirs back. Progress: the holder leaves the critical
section within four of its own steps, so from every reachable state a waiting
run can be scheduled to completion, and it gets the next number of the atomic
sequence. Liveness: under an unending schedule that keeps picking every thread
of a finite set, each of them returns from its call; a thread picked while
blocked in `Lock` stays where it is. -/

namespace BlackboxExporter.Icmp

namespace Pc

def written : Pc → Bool
  | stored | result _ | returned _ => true
  | _ => false

theorem lag_of_critical {pc : Pc} (critical : pc.critical = true) :
    pc.lag = if pc.written then 0 else 1 := by
  cases pc <;> simp_all [Pc.critical, lag, written]

def remaining : Pc → Nat
  | idle => 5
  | locked => 4
  | loaded _ => 3
  | stored => 2
  | result _ => 1
  | returned _ => 0

theorem remaining_eq_zero {pc : Pc} (finished : pc.remaining = 0) :
    ∃ value, pc = returned value := by
  cases pc <;> simp_all [remaining]

theorem written_of_not_critical {pc : Pc} (notIdle : pc ≠ idle)
    (notCritical : pc.critical = false) : pc.written = true := by
  cases pc <;> simp_all [Pc.critical, written]

end Pc

namespace Sys

variable {s next : Sys} {thread holder : Nat}

/-! ### Safety -/

/-- Mutual exclusion: in every interleaving, at most one thread is between
`Lock` and the deferred `Unlock`. -/
theorem critical_section_exclusive (reachable : s.Reachable) {first second : Nat}
    (firstCritical : (s.pc first).critical = true)
    (secondCritical : (s.pc second).critical = true) : first = second :=
  Option.some.inj ((reachable.inv.critical_holder first firstCritical).symm.trans
    (reachable.inv.critical_holder second secondCritical))

theorem lock_or_critical_of_step (stepped : s.step thread = some next) :
    s.pc thread = .idle ∧ s.icmpSequenceMutex = none ∨ (s.pc thread).critical = true := by
  cases reading : s.pc thread with
  | idle =>
      cases free : s.icmpSequenceMutex with
      | none => exact Or.inl ⟨rfl, rfl⟩
      | some _ => simp [step, reading, free] at stepped
  | returned _ => simp [step, reading] at stepped
  | _ => exact Or.inr rfl

/-- While the mutex is held, the holder is the only thread that can move:
the others block in `Lock` or have returned. -/
theorem step_by_holder (reachable : s.Reachable)
    (held : s.icmpSequenceMutex = some holder) (stepped : s.step thread = some next) :
    thread = holder := by
  rcases lock_or_critical_of_step stepped with ⟨-, free⟩ | critical
  · exact absurd (held.symm.trans free) (Option.some_ne_none holder)
  · exact reachable.inv.eq_holder_of_critical held critical

theorem Inv.writes (inv : Inv s) :
    s.acquired.countP (fun thread => (s.pc thread).written) = s.acquired.length - s.lag := by
  have written : ∀ thread ∈ s.acquired, s.icmpSequenceMutex ≠ some thread →
      (s.pc thread).written = true := by
    intro thread member notHolder
    refine Pc.written_of_not_critical (mt (inv.idle_iff thread).mp (not_not.mpr member)) ?_
    cases critical : (s.pc thread).critical
    · rfl
    · exact absurd (inv.critical_holder thread critical) notHolder
  cases held : s.icmpSequenceMutex with
  | none =>
      simp only [lag, held, Nat.sub_zero, List.countP_eq_length, decide_eq_true_eq]
      exact fun thread member => written thread member (by simp [held])
  | some holder =>
      have member := inv.mem_of_holder held
      have others : ∀ other ∈ s.acquired.erase holder, (s.pc other).written = true := by
        intro other kept
        obtain ⟨different, present⟩ := inv.nodup.mem_erase_iff.mp kept
        exact written other present (by simpa [held] using different.symm)
      have nonempty := List.length_pos_of_mem member
      rw [(List.perm_cons_erase member).countP_eq, List.countP_cons,
        List.countP_eq_length.mpr (by simpa using others),
        List.length_erase_of_mem member]
      simp only [lag, held, Pc.lag_of_critical (inv.holder_last holder held).1]
      split_ifs <;> omega

/-- No lost update: in every interleaving the counter counts, modulo `2^16`,
the threads that have written their increment of `icmpSequence++` back. -/
theorem icmpSequence_counts_writes (reachable : s.Reachable) :
    s.icmpSequence.toNat =
      (s.acquired.countP fun thread => (s.pc thread).written) % 65536 := by
  rw [reachable.inv.counter, reachable.inv.writes, counterAfter_eq_ofNat]
  rfl

/-! ### Progress -/

theorem run_append (s : Sys) (first second : List Nat) :
    s.run (first ++ second) = (s.run first).bind (·.run second) := by
  induction first generalizing s with
  | nil => rfl
  | cons thread first inductionHypothesis =>
      simp [run, inductionHypothesis, Option.bind_assoc]

theorem Inv.release (inv : Inv s) (held : s.icmpSequenceMutex = some holder) :
    ∃ rounds ≤ 4, ∃ final, s.run (List.replicate rounds holder) = some final ∧
      final.icmpSequenceMutex = none ∧ final.acquired = s.acquired ∧
      (∃ value, final.pc holder = .returned value) ∧
      ∀ other, other ≠ holder → final.pc other = s.pc other := by
  have critical := (inv.holder_last holder held).1
  cases reading : s.pc holder with
  | idle => simp [reading, Pc.critical] at critical
  | returned _ => simp [reading, Pc.critical] at critical
  | locked => refine ⟨4, le_refl 4, ?_⟩; simp +contextual [run, Sys.step, reading]
  | loaded _ => refine ⟨3, by omega, ?_⟩; simp +contextual [run, Sys.step, reading]
  | stored => refine ⟨2, by omega, ?_⟩; simp +contextual [run, Sys.step, reading]
  | result _ => refine ⟨1, by omega, ?_⟩; simp +contextual [run, Sys.step, reading]

/-- The holder of the mutex leaves the critical section within four of its own
steps, whatever state the interleaving has reached. -/
theorem holder_releases_within_four_steps (reachable : s.Reachable)
    (held : s.icmpSequenceMutex = some holder) :
    ∃ rounds ≤ 4, ∃ final, s.run (List.replicate rounds holder) = some final ∧
      final.icmpSequenceMutex = none ∧ ∃ value, final.pc holder = .returned value := by
  obtain ⟨rounds, bound, final, ran, free, -, returned, -⟩ := reachable.inv.release held
  exact ⟨rounds, bound, final, ran, free, returned⟩

theorem Reachable.quiesce (reachable : s.Reachable) :
    ∃ schedule quiet, s.run schedule = some quiet ∧ quiet.icmpSequenceMutex = none ∧
      quiet.acquired = s.acquired ∧
      ∀ thread, s.pc thread = .idle → quiet.pc thread = .idle := by
  cases held : s.icmpSequenceMutex with
  | none => exact ⟨[], s, rfl, held, rfl, fun _ idle => idle⟩
  | some holder =>
      obtain ⟨rounds, -, quiet, ran, free, kept, -, others⟩ := reachable.inv.release held
      refine ⟨_, quiet, ran, free, kept, fun thread idle => ?_⟩
      have different : thread ≠ holder := by
        rintro rfl
        simpa [idle, Pc.critical] using (reachable.inv.holder_last thread held).1
      rw [others thread different, idle]

/-- No deadlock: from every reachable state some schedule lets a waiting
thread complete its call, and it gets the result of the position after every
call already started. -/
theorem idle_thread_gets_next_number (reachable : s.Reachable)
    (idle : s.pc thread = .idle) :
    ∃ schedule final, s.run schedule = some final ∧ final.icmpSequenceMutex = none ∧
      final.pc thread = .returned (callResult s.acquired.length) := by
  obtain ⟨schedule, quiet, ran, free, kept, idleKept⟩ := reachable.quiesce
  have counter := (reachable.run ran).inv.counter
  simp only [lag, free, Nat.sub_zero, kept] at counter
  refine ⟨schedule ++ List.replicate 5 thread, quiet.call thread, ?_, rfl, ?_⟩
  · rw [run_append, ran, Option.some_bind]
    exact run_call (idleKept thread idle) free
  · simp [call, counter, callResult]

/-! ### Liveness under a fair schedule -/

/-- One decision of the scheduler: the picked thread moves if it can. -/
def tryStep (s : Sys) (thread : Nat) : Sys :=
  (s.step thread).getD s

def trace (s : Sys) (schedule : Nat → Nat) : Nat → Sys
  | 0 => s
  | k + 1 => (trace s schedule k).tryStep (schedule k)

def pending (s : Sys) (threads : Finset Nat) : Nat :=
  ∑ thread ∈ threads, (s.pc thread).remaining

/-- What one step can do: the mover gets closer to returning, no other thread
moves, and the mutex ends up free, as it was, or held by the mover. -/
theorem step_moves (stepped : s.step thread = some next) :
    (next.pc thread).remaining < (s.pc thread).remaining ∧
      (∀ other, other ≠ thread → next.pc other = s.pc other) ∧
      ∀ holder, next.icmpSequenceMutex = some holder →
        holder = thread ∨ s.icmpSequenceMutex = some holder := by
  unfold Sys.step at stepped
  repeat' split at stepped
  all_goals cases stepped
  all_goals exact ⟨by simp_all [Pc.remaining], fun other different => by simp [different],
    fun holder held => by simp_all⟩

theorem step_isSome_of_critical (critical : (s.pc thread).critical = true) :
    (s.step thread).isSome = true := by
  unfold Sys.step
  split <;> simp_all [Pc.critical]

theorem remaining_tryStep_le (other : Nat) :
    ((s.tryStep thread).pc other).remaining ≤ (s.pc other).remaining := by
  unfold tryStep
  cases stepped : s.step thread with
  | none => exact le_refl _
  | some next =>
      by_cases same : other = thread
      · subst same
        exact le_of_lt (step_moves stepped).1
      · rw [Option.getD_some, (step_moves stepped).2.1 other same]

theorem pending_tryStep_le (threads : Finset Nat) :
    pending (s.tryStep thread) threads ≤ pending s threads :=
  Finset.sum_le_sum fun other _ => remaining_tryStep_le other

theorem pending_step_lt {threads : Finset Nat} (member : thread ∈ threads)
    (stepped : s.step thread = some next) : pending next threads < pending s threads := by
  have moved : s.tryStep thread = next := by rw [tryStep, stepped, Option.getD_some]
  rw [← moved]
  refine Finset.sum_lt_sum (fun other _ => remaining_tryStep_le other) ⟨thread, member, ?_⟩
  rw [moved]
  exact (step_moves stepped).1

theorem Reachable.tryStep (reachable : s.Reachable) : (s.tryStep thread).Reachable := by
  unfold Sys.tryStep
  cases stepped : s.step thread with
  | none => exact reachable
  | some next => exact reachable.step stepped

section Fair

variable {threads : Finset Nat} {schedule : Nat → Nat}
  (within : ∀ k, schedule k ∈ threads)
  (fair : ∀ thread ∈ threads, ∀ k, ∃ later, k ≤ later ∧ schedule later = thread)

include within

theorem Reachable.trace (reachable : s.Reachable) (k : Nat) :
    (s.trace schedule k).Reachable ∧
      ∀ holder, (s.trace schedule k).icmpSequenceMutex = some holder →
        holder ∈ threads ∨ s.icmpSequenceMutex = some holder := by
  induction k with
  | zero => exact ⟨reachable, fun holder held => Or.inr held⟩
  | succ k inductionHypothesis =>
      refine ⟨inductionHypothesis.1.tryStep, fun holder held => ?_⟩
      simp only [Sys.trace, Sys.tryStep] at held
      cases stepped : (s.trace schedule k).step (schedule k) with
      | none => exact inductionHypothesis.2 holder (by simpa [stepped] using held)
      | some next =>
          rw [stepped, Option.getD_some] at held
          rcases (step_moves stepped).2.2 holder held with mover | before
          · exact Or.inl (mover ▸ within k)
          · exact inductionHypothesis.2 holder before

theorem trace_stays_or_progresses {k : Nat} :
    ∀ j, k ≤ j → s.trace schedule j = s.trace schedule k ∨
      pending (s.trace schedule j) threads < pending (s.trace schedule k) threads := by
  intro j later
  induction j, later using Nat.le_induction with
  | base => exact Or.inl rfl
  | succ j _ inductionHypothesis =>
      simp only [Sys.trace, tryStep]
      cases stepped : (s.trace schedule j).step (schedule j) with
      | none => simpa using inductionHypothesis
      | some next =>
          have closer := pending_step_lt (within j) stepped
          simp only [Option.getD_some]
          rcases inductionHypothesis with same | progressed
          · exact Or.inr (same ▸ closer)
          · exact Or.inr (closer.trans progressed)

include fair

theorem trace_progresses (reachable : s.Reachable)
    (holderWithin : ∀ holder, s.icmpSequenceMutex = some holder → holder ∈ threads)
    (k : Nat) (unfinished : ∃ thread ∈ threads, 0 < ((s.trace schedule k).pc thread).remaining) :
    ∃ j, pending (s.trace schedule j) threads < pending (s.trace schedule k) threads := by
  obtain ⟨reachableAt, holders⟩ := reachable.trace within k
  have enabled : ∃ mover ∈ threads, ((s.trace schedule k).step mover).isSome = true := by
    cases held : (s.trace schedule k).icmpSequenceMutex with
    | some holder =>
        refine ⟨holder, (holders holder held).elim id (holderWithin holder), ?_⟩
        exact step_isSome_of_critical (reachableAt.inv.holder_last holder held).1
    | none =>
        obtain ⟨thread, member, ahead⟩ := unfinished
        refine ⟨thread, member, ?_⟩
        cases reading : (s.trace schedule k).pc thread with
        | idle => simp [Sys.step, reading, held]
        | returned _ => simp [reading, Pc.remaining] at ahead
        | _ =>
            have critical := reachableAt.inv.critical_holder thread (by simp [reading, Pc.critical])
            simp [held] at critical
  obtain ⟨mover, member, canMove⟩ := enabled
  obtain ⟨later, after, picked⟩ := fair mover member k
  obtain ⟨next, stepped⟩ := Option.isSome_iff_exists.mp canMove
  refine ⟨later + 1, ?_⟩
  rcases trace_stays_or_progresses within later after with same | progressed
  · have movesThere : (s.trace schedule later).step (schedule later) = some next := by
      rw [same, picked]
      exact stepped
    simp only [Sys.trace, tryStep, movesThere, Option.getD_some]
    exact same ▸ pending_step_lt (within later) movesThere
  · exact lt_of_le_of_lt (pending_tryStep_le threads) progressed

/-- No call waits forever: from every reachable state, under an unending
schedule that picks only threads of a finite set, picks each of them again
after every point, and starts from a holder in the set, some point has every
thread of the set returned, with the atomic result of its position in the
order the mutex was taken. -/
theorem fair_schedule_completes_every_call (reachable : s.Reachable)
    (holderWithin : ∀ holder, s.icmpSequenceMutex = some holder → holder ∈ threads) :
    ∃ k, ∀ thread ∈ threads, ∃ position,
      (s.trace schedule k).acquired[position]? = some thread ∧
        (s.trace schedule k).pc thread = .returned (callResult position) := by
  suffices finishes : ∀ bound k, pending (s.trace schedule k) threads ≤ bound →
      ∃ j, ∀ thread ∈ threads, ((s.trace schedule j).pc thread).remaining = 0 by
    obtain ⟨j, finished⟩ := finishes _ 0 le_rfl
    refine ⟨j, fun thread member => ?_⟩
    have inv := ((reachable.trace within j).1).inv
    obtain ⟨value, returned⟩ := Pc.remaining_eq_zero (finished thread member)
    have acquired : thread ∈ (s.trace schedule j).acquired := by
      by_contra absent
      simp [(inv.idle_iff thread).mpr absent] at returned
    obtain ⟨position, found⟩ := List.mem_iff_getElem?.mp acquired
    exact ⟨position, found, inv.returned position thread value found returned ▸ returned⟩
  intro bound
  induction bound with
  | zero =>
      intro k empty
      exact ⟨k, fun thread member =>
        Finset.sum_eq_zero_iff.mp (Nat.le_zero.mp empty) thread member⟩
  | succ bound inductionHypothesis =>
      intro k bounded
      by_cases finished : ∀ thread ∈ threads, ((s.trace schedule k).pc thread).remaining = 0
      · exact ⟨k, finished⟩
      · push_neg at finished
        obtain ⟨thread, member, ahead⟩ := finished
        obtain ⟨j, closer⟩ := trace_progresses within fair reachable holderWithin k
          ⟨thread, member, Nat.pos_of_ne_zero ahead⟩
        exact inductionHypothesis j (by omega)

end Fair

theorem alternating_schedule_completes_both_calls :
    (∀ k, k % 2 ∈ ({0, 1} : Finset Nat)) ∧
      (∀ thread ∈ ({0, 1} : Finset Nat), ∀ k, ∃ later, k ≤ later ∧ later % 2 = thread) ∧
      ∃ k, ∀ thread ∈ ({0, 1} : Finset Nat), ∃ position,
        (initial.trace (· % 2) k).acquired[position]? = some thread ∧
          (initial.trace (· % 2) k).pc thread = .returned (callResult position) :=
  have within : ∀ k, k % 2 ∈ ({0, 1} : Finset Nat) := fun k => by
    simp only [Finset.mem_insert, Finset.mem_singleton]
    omega
  have fair : ∀ thread ∈ ({0, 1} : Finset Nat), ∀ k, ∃ later, k ≤ later ∧ later % 2 = thread := by
    intro thread member k
    simp only [Finset.mem_insert, Finset.mem_singleton] at member
    exact ⟨2 * k + thread, by omega, by omega⟩
  ⟨within, fair,
    fair_schedule_completes_every_call within fair .initial fun _ free => by cases free⟩

/-! ### A reachable state with a held mutex -/

def firstLock : Sys :=
  { initial.setPc 0 .locked with icmpSequenceMutex := some 0, acquired := [0] }

theorem firstLock_reachable : firstLock.Reachable :=
  .step .initial (show initial.step 0 = some firstLock from rfl)

theorem firstLock_exclusive :
    (firstLock.pc 0).critical = true ∧ (0 : Nat) = 0 ∧ (firstLock.pc 1).critical = false :=
  have holding : (firstLock.pc 0).critical = true := rfl
  ⟨holding, critical_section_exclusive firstLock_reachable holding holding,
    Bool.eq_false_iff.mpr fun waiting =>
      absurd (critical_section_exclusive firstLock_reachable holding waiting) (by decide)⟩

theorem firstLock_moves_holder :
    firstLock.step 0 = some (firstLock.setPc 0 (.loaded 0)) ∧ (0 : Nat) = 0 ∧
      firstLock.step 1 = none :=
  have moves : firstLock.step 0 = some (firstLock.setPc 0 (.loaded 0)) := rfl
  ⟨moves, step_by_holder firstLock_reachable rfl moves,
    Option.eq_none_iff_forall_not_mem.mpr fun _ waiting =>
      absurd (step_by_holder firstLock_reachable rfl waiting) (by decide)⟩

theorem firstLock_releases :
    firstLock.icmpSequenceMutex = some 0 ∧
      ∃ rounds ≤ 4, ∃ final, firstLock.run (List.replicate rounds 0) = some final ∧
        final.icmpSequenceMutex = none ∧ ∃ value, final.pc 0 = .returned value :=
  ⟨rfl, holder_releases_within_four_steps firstLock_reachable rfl⟩

theorem firstLock_counts_writes :
    firstLock.icmpSequence.toNat =
      (firstLock.acquired.countP fun thread => (firstLock.pc thread).written) % 65536 :=
  icmpSequence_counts_writes firstLock_reachable

end Sys

end BlackboxExporter.Icmp
