import Mathlib.Data.Nat.ModEq
import Mathlib.Data.List.Nodup

/-! The shared ICMP sequence counter of `icmp.go`.

`getICMPSequence` is modelled twice. First as the atomic call on the `uint16`
counter, whose successive results from the zero counter are the abstract
sequence. Then as the code runs it under concurrency: every `probeICMP` run is
a thread that takes `icmpSequenceMutex`, performs the two halves of
`icmpSequence++`, reads the result and releases the mutex, and a scheduler may
interleave the threads' steps in any order. The ghost list `acquired` records
the order in which threads took the mutex.

Every reachable interleaving refines the atomic sequence: the thread that took
the mutex `k`-th returns the `k`-th atomic result. The counter wraps, so the
results repeat with period `2^16`. -/

namespace BlackboxExporter.Icmp

/-! ### The atomic call -/

/-- `getICMPSequence` on the counter it guards: the new counter and the
returned value. `icmpSequence++` wraps at `2^16` as Go's `uint16` does. -/
def getICMPSequence (icmpSequence : UInt16) : UInt16 × UInt16 :=
  (icmpSequence + 1, icmpSequence + 1)

def counterAfter : Nat → UInt16
  | 0 => 0
  | calls + 1 => (getICMPSequence (counterAfter calls)).1

/-- What the call at position `position` (from zero) returns when the calls
run one after another. -/
def callResult (position : Nat) : UInt16 :=
  (getICMPSequence (counterAfter position)).2

theorem callResult_eq_counterAfter (position : Nat) :
    callResult position = counterAfter (position + 1) := rfl

theorem ofNat_succ (value : Nat) :
    UInt16.ofNat (value + 1) = UInt16.ofNat value + 1 := by
  have oneToNat : (1 : UInt16).toBitVec.toNat = 1 := rfl
  apply UInt16.toNat.inj
  simp only [UInt16.ofNat, UInt16.toNat, UInt16.add_def, BitVec.toNat_add,
    BitVec.toNat_ofNat, oneToNat]
  omega

theorem counterAfter_eq_ofNat (calls : Nat) :
    counterAfter calls = UInt16.ofNat calls := by
  induction calls with
  | zero => rfl
  | succ calls inductionHypothesis =>
      rw [counterAfter, getICMPSequence, inductionHypothesis, ofNat_succ]

theorem callResult_toNat (position : Nat) :
    (callResult position).toNat = (position + 1) % 65536 := by
  simp [callResult_eq_counterAfter, counterAfter_eq_ofNat, UInt16.ofNat,
    UInt16.toNat, BitVec.toNat_ofNat]

theorem callResult_eq_iff (first second : Nat) :
    callResult first = callResult second ↔ first ≡ second [MOD 65536] := by
  rw [Nat.ModEq]
  constructor
  · intro same
    have toNatSame := congrArg UInt16.toNat same
    rw [callResult_toNat, callResult_toNat] at toNatSame
    omega
  · intro congruent
    apply UInt16.toNat.inj
    rw [callResult_toNat, callResult_toNat]
    omega

/-! ### Threads interleaved under the mutex -/

/-- Where one `probeICMP` run stands in its call to `getICMPSequence`:
`loaded` and `stored` are the read and the write of `icmpSequence++`, and
`result` is the read of `return icmpSequence` before the deferred unlock. -/
inductive Pc where
  | idle
  | locked
  | loaded (value : UInt16)
  | stored
  | result (value : UInt16)
  | returned (value : UInt16)
  deriving DecidableEq, Repr

namespace Pc

def critical : Pc → Bool
  | idle | returned _ => false
  | _ => true

def lag : Pc → Nat
  | locked | loaded _ => 1
  | _ => 0

def register : Pc → Option UInt16
  | loaded value | result value => some value
  | _ => none

theorem critical_of_register {pc : Pc} {value : UInt16}
    (held : pc.register = some value) : pc.critical = true := by
  cases pc <;> simp_all [register, critical]

end Pc

/-- The process: the counter, the holder of `icmpSequenceMutex`, where every
thread stands, and the threads in the order they took the mutex. -/
structure Sys where
  icmpSequence : UInt16
  icmpSequenceMutex : Option Nat
  pc : Nat → Pc
  acquired : List Nat

namespace Sys

def initial : Sys :=
  { icmpSequence := 0
    icmpSequenceMutex := none
    pc := fun _ => .idle
    acquired := [] }

def setPc (s : Sys) (thread : Nat) (next : Pc) : Sys :=
  { s with pc := Function.update s.pc thread next }

@[simp] theorem setPc_pc_self (s : Sys) (thread : Nat) (next : Pc) :
    (s.setPc thread next).pc thread = next :=
  Function.update_same _ _ _

@[simp] theorem setPc_pc_ne (s : Sys) {thread other : Nat} (next : Pc)
    (different : other ≠ thread) :
    (s.setPc thread next).pc other = s.pc other :=
  Function.update_noteq different _ _

@[simp] theorem setPc_icmpSequence (s : Sys) (thread : Nat) (next : Pc) :
    (s.setPc thread next).icmpSequence = s.icmpSequence := rfl

@[simp] theorem setPc_icmpSequenceMutex (s : Sys) (thread : Nat) (next : Pc) :
    (s.setPc thread next).icmpSequenceMutex = s.icmpSequenceMutex := rfl

@[simp] theorem setPc_acquired (s : Sys) (thread : Nat) (next : Pc) :
    (s.setPc thread next).acquired = s.acquired := rfl

/-- Thread `thread` takes its next step of `getICMPSequence`; `none` when it
waits for the mutex or has already returned. -/
def step (s : Sys) (thread : Nat) : Option Sys :=
  match s.pc thread with
  | .idle =>
      match s.icmpSequenceMutex with
      | none =>
          some { s.setPc thread .locked with
            icmpSequenceMutex := some thread
            acquired := s.acquired ++ [thread] }
      | some _ => none
  | .locked => some (s.setPc thread (.loaded s.icmpSequence))
  | .loaded value => some { s.setPc thread .stored with icmpSequence := value + 1 }
  | .stored => some (s.setPc thread (.result s.icmpSequence))
  | .result value =>
      some { s.setPc thread (.returned value) with icmpSequenceMutex := none }
  | .returned _ => none

/-- The states some interleaving of the threads' steps reaches. -/
inductive Reachable : Sys → Prop
  | initial : Reachable initial
  | step {s next : Sys} {thread : Nat} :
      Reachable s → s.step thread = some next → Reachable next

def lag (s : Sys) : Nat :=
  match s.icmpSequenceMutex with
  | some holder => (s.pc holder).lag
  | none => 0

/-- What every interleaving keeps. The mutex admits one thread at a time, and
it is the last to have taken it; the counter counts the writes made; and each
returned thread carries the atomic result of its position in `acquired`. -/
structure Inv (s : Sys) : Prop where
  nodup : s.acquired.Nodup
  idle_iff : ∀ thread, s.pc thread = .idle ↔ thread ∉ s.acquired
  critical_holder : ∀ thread,
    (s.pc thread).critical = true → s.icmpSequenceMutex = some thread
  holder_last : ∀ thread, s.icmpSequenceMutex = some thread →
    (s.pc thread).critical = true ∧ s.acquired.getLast? = some thread
  counter : s.icmpSequence = counterAfter (s.acquired.length - s.lag)
  register : ∀ thread value,
    (s.pc thread).register = some value → value = s.icmpSequence
  returned : ∀ position thread value, s.acquired[position]? = some thread →
    s.pc thread = .returned value → value = callResult position

theorem initial_inv : Inv initial := by
  constructor <;> simp [initial, lag, counterAfter, Pc.critical, Pc.register]

private theorem getElem?_of_append_singleton {acquired : List Nat}
    {position thread other : Nat}
    (found : (acquired ++ [thread])[position]? = some other)
    (different : other ≠ thread) :
    acquired[position]? = some other := by
  by_cases inside : position < acquired.length
  · rwa [List.getElem?_append_left inside] at found
  · rw [List.getElem?_append_right (Nat.le_of_not_lt inside)] at found
    cases hIndex : position - acquired.length <;>
      simp_all [eq_comm]

private theorem position_of_last {acquired : List Nat} {position thread : Nat}
    (nodup : acquired.Nodup) (last : acquired.getLast? = some thread)
    (found : acquired[position]? = some thread) :
    position + 1 = acquired.length := by
  rw [List.getLast?_eq_getElem?] at last
  obtain ⟨lastBound, lastEq⟩ := List.getElem?_eq_some_iff.mp last
  obtain ⟨bound, foundEq⟩ := List.getElem?_eq_some_iff.mp found
  have same := nodup.getElem_inj_iff.mp (foundEq.trans lastEq.symm)
  omega

variable {s : Sys} {thread : Nat}

theorem Inv.mem_of_holder (inv : Inv s)
    (holder : s.icmpSequenceMutex = some thread) : thread ∈ s.acquired :=
  List.mem_of_getLast?_eq_some (inv.holder_last thread holder).2

theorem Inv.lock (inv : Inv s) (idle : s.pc thread = .idle)
    (free : s.icmpSequenceMutex = none) :
    Inv { s.setPc thread .locked with
      icmpSequenceMutex := some thread
      acquired := s.acquired ++ [thread] } := by
  have fresh : thread ∉ s.acquired := (inv.idle_iff thread).mp idle
  have counter := inv.counter
  simp only [lag, free] at counter
  constructor
  · simp [List.nodup_append, inv.nodup, fresh]
  · intro other
    by_cases same : other = thread
    · subst same; simp
    · simp [same, inv.idle_iff]
  · intro other critical
    by_cases same : other = thread
    · simp [same]
    · simp only [setPc_pc_ne _ _ same] at critical
      simp [inv.critical_holder other critical] at free
  · intro other holder
    obtain rfl : thread = other := Option.some.inj holder
    simp [Pc.critical]
  · simp [lag, Pc.lag, counter]
  · intro other value held
    by_cases same : other = thread
    · subst same; simp [Pc.register] at held
    · simp only [setPc_pc_ne _ _ same] at held
      exact inv.register other value held
  · intro position other value found returned
    by_cases same : other = thread
    · subst same; simp at returned
    · simp only [setPc_pc_ne _ _ same] at returned
      exact inv.returned position other value
        (getElem?_of_append_singleton found same) returned

theorem Inv.advance (inv : Inv s)
    (holder : s.icmpSequenceMutex = some thread) {next : Pc}
    (nextCritical : next.critical = true)
    (sameLag : next.lag = (s.pc thread).lag)
    (nextRegister : ∀ value, next.register = some value → value = s.icmpSequence) :
    Inv (s.setPc thread next) := by
  have member := inv.mem_of_holder holder
  constructor
  · exact inv.nodup
  · intro other
    by_cases same : other = thread
    · subst same
      simp only [setPc_pc_self, setPc_acquired, member, not_true_eq_false,
        iff_false]
      rintro rfl
      simp [Pc.critical] at nextCritical
    · simpa [same] using inv.idle_iff other
  · intro other critical
    by_cases same : other = thread
    · simpa [same] using holder
    · simp only [setPc_pc_ne _ _ same] at critical
      simpa using inv.critical_holder other critical
  · intro other held
    obtain rfl : thread = other := Option.some.inj (holder.symm.trans held)
    simpa [nextCritical] using (inv.holder_last thread holder).2
  · simpa [lag, holder, sameLag] using inv.counter
  · intro other value held
    by_cases same : other = thread
    · subst same; simpa using nextRegister value (by simpa using held)
    · simp only [setPc_pc_ne _ _ same] at held
      simpa using inv.register other value held
  · intro position other value found returned
    by_cases same : other = thread
    · subst same
      simp only [setPc_pc_self] at returned
      simp [returned, Pc.critical] at nextCritical
    · simp only [setPc_pc_ne _ _ same] at returned
      exact inv.returned position other value found returned

theorem Inv.eq_holder_of_critical (inv : Inv s)
    (holder : s.icmpSequenceMutex = some thread) {other : Nat}
    (critical : (s.pc other).critical = true) : other = thread :=
  Option.some.inj ((inv.critical_holder other critical).symm.trans holder)

theorem Inv.store (inv : Inv s) {value : UInt16}
    (loaded : s.pc thread = .loaded value) :
    Inv { s.setPc thread .stored with icmpSequence := value + 1 } := by
  have holder := inv.critical_holder thread (by simp [loaded, Pc.critical])
  have member := inv.mem_of_holder holder
  have readCounter := inv.register thread value (by simp [loaded, Pc.register])
  have counter := inv.counter
  simp only [lag, holder, loaded, Pc.lag] at counter
  obtain ⟨writes, lengthEq⟩ : ∃ writes, s.acquired.length = writes + 1 :=
    Nat.exists_eq_succ_of_ne_zero (List.ne_nil_of_mem member ∘ List.length_eq_zero.mp)
  constructor
  · exact inv.nodup
  · intro other
    by_cases same : other = thread
    · subst same; simp [member]
    · simpa [same] using inv.idle_iff other
  · intro other critical
    by_cases same : other = thread
    · simpa [same] using holder
    · simp only [setPc_pc_ne _ _ same] at critical
      simpa using inv.critical_holder other critical
  · intro other held
    obtain rfl : thread = other := Option.some.inj (holder.symm.trans held)
    simpa [Pc.critical] using (inv.holder_last thread holder).2
  · simp only [lag, setPc_acquired, setPc_icmpSequenceMutex, holder,
      setPc_pc_self, Pc.lag, Nat.sub_zero]
    rw [readCounter, counter, lengthEq, Nat.add_sub_cancel]
    rfl
  · intro other stored held
    by_cases same : other = thread
    · subst same; simp [Pc.register] at held
    · simp only [setPc_pc_ne _ _ same] at held
      exact absurd (inv.eq_holder_of_critical holder (Pc.critical_of_register held)) same
  · intro position other result found returned
    by_cases same : other = thread
    · subst same; simp at returned
    · simp only [setPc_pc_ne _ _ same] at returned
      exact inv.returned position other result found returned

theorem Inv.unlock (inv : Inv s) {value : UInt16}
    (reading : s.pc thread = .result value) :
    Inv { s.setPc thread (.returned value) with icmpSequenceMutex := none } := by
  have holder := inv.critical_holder thread (by simp [reading, Pc.critical])
  have member := inv.mem_of_holder holder
  have readCounter := inv.register thread value (by simp [reading, Pc.register])
  have counter := inv.counter
  simp only [lag, holder, reading, Pc.lag, Nat.sub_zero] at counter
  constructor
  · exact inv.nodup
  · intro other
    by_cases same : other = thread
    · subst same; simp [member]
    · simpa [same] using inv.idle_iff other
  · intro other critical
    by_cases same : other = thread
    · subst same; simp [Pc.critical] at critical
    · simp only [setPc_pc_ne _ _ same] at critical
      exact absurd (inv.eq_holder_of_critical holder critical) same
  · intro other held
    cases held
  · simpa [lag] using counter
  · intro other result held
    by_cases same : other = thread
    · subst same; simp [Pc.register] at held
    · simp only [setPc_pc_ne _ _ same] at held
      exact absurd (inv.eq_holder_of_critical holder (Pc.critical_of_register held)) same
  · intro position other result found returned
    by_cases same : other = thread
    · subst same
      simp only [setPc_pc_self, Pc.returned.injEq] at returned
      have last := position_of_last inv.nodup (inv.holder_last other holder).2 found
      rw [← returned, readCounter, counter, ← last]
      rfl
    · simp only [setPc_pc_ne _ _ same] at returned
      exact inv.returned position other result found returned

theorem Inv.step (inv : Inv s) {next : Sys}
    (stepped : s.step thread = some next) : Inv next := by
  unfold Sys.step at stepped
  split at stepped
  case h_1 idle =>
      split at stepped
      case h_1 free =>
          cases stepped
          exact inv.lock idle free
      case h_2 => cases stepped
  case h_2 locked =>
      cases stepped
      exact inv.advance (inv.critical_holder thread (by simp [locked, Pc.critical]))
        rfl (by simp [locked, Pc.lag]) (by simp [Pc.register])
  case h_3 value loaded =>
      cases stepped
      exact inv.store loaded
  case h_4 stored =>
      cases stepped
      exact inv.advance (inv.critical_holder thread (by simp [stored, Pc.critical]))
        rfl (by simp [stored, Pc.lag]) (by simp [Pc.register])
  case h_5 value reading =>
      cases stepped
      exact inv.unlock reading
  case h_6 => cases stepped

theorem Reachable.inv {s : Sys} (reachable : Reachable s) : Inv s := by
  induction reachable with
  | initial => exact initial_inv
  | step _ stepped inductionHypothesis => exact inductionHypothesis.step stepped

/-! ### Schedules -/

/-- The threads' steps in the order a schedule picks them; `none` when the
schedule picks a thread that cannot move. -/
def run (s : Sys) : List Nat → Option Sys
  | [] => some s
  | thread :: schedule => (s.step thread).bind (run · schedule)

theorem Reachable.run {s final : Sys} (reachable : Reachable s) :
    ∀ {schedule}, s.run schedule = some final → Reachable final := by
  intro schedule
  induction schedule generalizing s with
  | nil =>
      intro ran
      cases ran
      exact reachable
  | cons thread schedule inductionHypothesis =>
      intro ran
      simp only [Sys.run, Option.bind_eq_some] at ran
      obtain ⟨next, stepped, rest⟩ := ran
      exact inductionHypothesis (reachable.step stepped) rest

def call (s : Sys) (thread : Nat) : Sys :=
  { icmpSequence := (getICMPSequence s.icmpSequence).1
    icmpSequenceMutex := none
    pc := Function.update s.pc thread (.returned (getICMPSequence s.icmpSequence).2)
    acquired := s.acquired ++ [thread] }

theorem run_call {s : Sys} (idle : s.pc thread = .idle)
    (free : s.icmpSequenceMutex = none) :
    s.run [thread, thread, thread, thread, thread] = some (s.call thread) := by
  simp [run, step, idle, free, setPc, call, getICMPSequence]

def sequential (calls : Nat) : Sys :=
  { icmpSequence := counterAfter calls
    icmpSequenceMutex := none
    pc := fun thread => if thread < calls then .returned (callResult thread) else .idle
    acquired := List.range calls }

theorem sequential_reachable (calls : Nat) : Reachable (sequential calls) := by
  induction calls with
  | zero =>
      have start : sequential 0 = initial := by
        simp [sequential, initial, counterAfter]
      exact start ▸ Reachable.initial
  | succ calls inductionHypothesis =>
      have next : (sequential calls).call calls = sequential (calls + 1) := by
        simp only [call, sequential, List.range_succ, Sys.mk.injEq, true_and,
          and_true]
        refine ⟨rfl, funext fun thread => ?_⟩
        by_cases same : thread = calls
        · subst same; simp [callResult]
        · simp only [Function.update_noteq same]
          congr 1
          simp only [eq_iff_iff]
          omega
      exact next ▸ inductionHypothesis.run
        (run_call (by simp [sequential]) rfl)

end Sys

open Sys in
/-- In every interleaving of any number of `probeICMP` runs, the run that took
`icmpSequenceMutex` at position `position` (from zero) gets `position + 1`
modulo `2^16`. Two runs get the same number exactly when their positions are
congruent modulo `2^16`, so runs within `2^16` consecutive positions get
distinct numbers, and some interleaving gives two runs the same number. -/
theorem getICMPSequence_acquisition_order :
    (∀ s : Sys, s.Reachable → ∀ position thread value,
        s.acquired[position]? = some thread → s.pc thread = .returned value →
        value.toNat = (position + 1) % 65536) ∧
    (∀ s : Sys, s.Reachable →
        ∀ first second firstThread secondThread firstValue secondValue,
        s.acquired[first]? = some firstThread →
        s.acquired[second]? = some secondThread →
        s.pc firstThread = .returned firstValue →
        s.pc secondThread = .returned secondValue →
        (firstValue = secondValue ↔ first ≡ second [MOD 65536]) ∧
        (first < second → second < first + 65536 → firstValue ≠ secondValue)) ∧
    (∃ s : Sys, s.Reachable ∧ ∃ firstThread secondThread value,
        s.acquired[0]? = some firstThread ∧
        s.acquired[65536]? = some secondThread ∧
        s.pc firstThread = .returned value ∧
        s.pc secondThread = .returned value) := by
  refine ⟨?positionValue, ?sameIffCongruent, ?repeats⟩
  case positionValue =>
    intro s reachable position thread value found returned
    rw [reachable.inv.returned position thread value found returned,
      callResult_toNat]
  case sameIffCongruent =>
    intro s reachable first second firstThread secondThread firstValue
      secondValue firstFound secondFound firstReturned secondReturned
    rw [reachable.inv.returned first firstThread firstValue firstFound firstReturned,
      reachable.inv.returned second secondThread secondValue secondFound
        secondReturned, callResult_eq_iff]
    refine ⟨Iff.rfl, fun before within congruent => ?_⟩
    have := (callResult_eq_iff first second).mp congruent
    rw [Nat.ModEq] at this
    omega
  case repeats =>
    have wraps : callResult 65536 = callResult 0 :=
      (callResult_eq_iff 65536 0).mpr rfl
    refine ⟨sequential 65537, sequential_reachable 65537, 0, 65536,
      callResult 0, ?_⟩
    simp only [sequential]
    simp [List.getElem?_range, wraps]

end BlackboxExporter.Icmp
