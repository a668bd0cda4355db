/-
The heartbeat of `TcpQQClient` alone: whether it returns, what it refuses, and what it leaves behind
when it fails. `MockQQClient` checks the range of the interval before it writes anything; the TCP
client builds the packet first, and the conversion of an interval that does not fit panics there.
-/
import NapCat.QQClient.Mock
import NapCat.QQClient.Sequential

namespace NapCat.QQClient

namespace Tcp

open Threads (alone)

/-- A heartbeat that runs alone, up to some point of it. -/
def beat (g : Shared) (interval : Duration) (as : List Act) : Option (Shared × Pc) :=
  (start g (.heartbeat interval)).bind fun s => Run.exec (alone program) s as

/-- The call has a next step, or waits for the stream lock that another call holds. -/
def CanGoOn (s : Shared × Pc) : Prop := s.1.streamLocked = true ∨ ∃ a s', alone program s a = some s'

def Kept (g g' : Shared) : Prop := g'.heartbeatAt = g.heartbeatAt ∧ g'.timeoutMs = g.timeoutMs

/-- A heartbeat returns, refuses an interval of zero or beyond a `u64`, and leaves the time of the last
heartbeat and the timeout when it fails. -/
structure TotalAtomic (g : Shared) (interval : Duration) : Prop where
  returns : ∀ as g' p, beat g interval as = some (g', p) →
    as.length ≤ 6 ∧ p ≠ .panicked ∧ (p.finished = false → CanGoOn (g', p))
  refuses : interval.nanos = 0 ∨ 2 ^ 64 ≤ interval.asMillis →
    ∀ as g' r, beat g interval as = some (g', .done r) → ∃ e, r = .error e
  atomic : ∀ as g' e, beat g interval as = some (g', .done (.error e)) → Kept g g'

/-- The points of a heartbeat, with what it has not written there. -/
def Beating (g g' : Shared) : Pc → Prop
  | .beatCheck _ | .write (.heartbeat _) _ _ | .beatAt _ | .done (.error _) => Kept g g'
  | .beatTimeout _ | .done (.ok _) => True
  | _ => False

def stepsLeft : Pc → Nat
  | .beatCheck _ => 6
  | .write _ _ .stream => 5
  | .write _ _ .deadline => 4
  | .write _ _ (.write _) => 3
  | .beatAt _ => 2
  | .beatTimeout _ => 1
  | _ => 0

theorem Beating.step {g : Shared} {s s' : Shared × Pc} {a : Act} (h : Beating g s.1 s.2)
    (hs : alone program s a = some s') : Beating g s'.1 s'.2 ∧ stepsLeft s'.2 < stepsLeft s.2 := by
  obtain ⟨g₁, p⟩ := s
  change act g₁ p a = some s' at hs
  change Beating g g₁ p at h
  cases p with
  | beatCheck ms =>
    cases a with
    | go =>
      rw [act] at hs
      split at hs
      · cases hs; exact ⟨h, Nat.succ_pos 5⟩
      · cases hs; exact ⟨h, Nat.lt_succ_self 5⟩
    | io | convert | read | readFailed | clock => cases hs
  | write who line w =>
    cases who with
    | heartbeat ms =>
      rw [act] at hs
      unfold writeLine at hs
      split at hs
      · split at hs
        · cases hs
        · split at hs
          · cases hs; exact ⟨h, Nat.succ_pos 4⟩
          · cases hs; exact ⟨h, Nat.lt_succ_self 4⟩
      · cases hs; exact ⟨h, Nat.lt_succ_self 3⟩
      · cases hs; exact ⟨h, Nat.lt_succ_self 2⟩
      · cases hs; exact ⟨h, Nat.succ_pos 2⟩
      · cases hs; exact ⟨h, Nat.succ_pos 2⟩
      · cases hs
    | login | sendPacket => exact h.elim
  | beatAt ms =>
    cases a with
    | clock now => cases hs; exact ⟨trivial, Nat.lt_succ_self 1⟩
    | go | io | convert | read | readFailed => cases hs
  | beatTimeout ms =>
    cases a with
    | go => cases hs; exact ⟨trivial, Nat.lt_succ_self 0⟩
    | io | convert | read | readFailed | clock => cases hs
  | done r => cases hs
  | _ => exact h.elim

theorem Beating.canGoOn {g g' : Shared} {p : Pc} (h : Beating g g' p) (hf : p.finished = false) :
    CanGoOn (g', p) := by
  cases p with
  | beatCheck ms =>
    right
    refine ⟨.go, ?_⟩
    by_cases hl : g'.state ≠ .loggedIn
    · exact ⟨_, if_pos hl⟩
    · exact ⟨_, if_neg hl⟩
  | write who line w =>
    cases w with
    | stream =>
      by_cases hl : g'.streamLocked = true
      · exact .inl hl
      · right
        refine ⟨.go, ?_⟩
        by_cases hn : g'.stream = none
        · exact ⟨_, (if_neg hl).trans (if_pos hn)⟩
        · exact ⟨_, (if_neg hl).trans (if_neg hn)⟩
    | deadline => exact .inr ⟨.go, _, rfl⟩
    | write ms => exact .inr ⟨.io .ok, _, rfl⟩
  | beatAt ms => exact .inr ⟨.clock 0, _, rfl⟩
  | beatTimeout ms => exact .inr ⟨.go, _, rfl⟩
  | done r => cases hf
  | _ => exact h.elim

theorem Beating.run {g : Shared} {s s' : Shared × Pc} {as : List Act} (h : Beating g s.1 s.2)
    (hs : Run.exec (alone program) s as = some s') : Beating g s'.1 s'.2 ∧ as.length + stepsLeft s'.2 ≤ stepsLeft s.2 :=
  Run.exec_bounded (I := fun s => Beating g s.1 s.2) (μ := fun s => stepsLeft s.2) (fun _ _ _ => Beating.step)
    as s s' h hs

theorem beat_open {g : Shared} {interval : Duration} {as : List Act} (hg : g.isSessionOpen = true)
    (hi : interval.nanos ≠ 0) (hm : ¬ 2 ^ 64 ≤ interval.asMillis) :
    beat g interval as = Run.exec (alone program) (g, .beatCheck (UInt64.ofNat interval.asMillis)) as := by
  simp only [beat, start, hg, Bool.not_true, Bool.false_eq_true, if_false, hi, hm, Option.bind_some]

theorem beat_tooLong {g : Shared} {interval : Duration} {as : List Act} (hg : g.isSessionOpen = true)
    (hm : 2 ^ 64 ≤ interval.asMillis) : beat g interval as = Run.exec (alone program) (g, .panicked) as := by
  have hi : interval.nanos ≠ 0 := by
    intro hi
    rw [Duration.asMillis, hi] at hm
    omega
  simp only [beat, start, hg, Bool.not_true, Bool.false_eq_true, if_false, hi, hm, if_true, Option.bind_some]

/-- A heartbeat that fails in its first step. -/
theorem totalAtomic_of_refused {g : Shared} {interval : Duration} {e : QQClientError}
    (h : start g (.heartbeat interval) = some (g, fail e)) : TotalAtomic g interval := by
  have hdone : ∀ as g' p, beat g interval as = some (g', p) → as = [] ∧ g' = g ∧ p = fail e := by
    intro as g' p hb
    rw [beat, h] at hb
    obtain ⟨has, hs⟩ := alone_done hb
    cases hs
    exact ⟨has, rfl, rfl⟩
  refine ⟨fun as g' p hb => ?_, fun _ as g' r hb => ?_, fun as g' e' hb => ?_⟩
  · obtain ⟨rfl, rfl, rfl⟩ := hdone as g' p hb
    exact ⟨Nat.zero_le _, Pc.noConfusion, fun hf => Bool.noConfusion hf⟩
  · obtain ⟨-, -, hr⟩ := hdone as g' _ hb
    cases hr
    exact ⟨e, rfl⟩
  · obtain ⟨-, rfl, -⟩ := hdone as g' _ hb
    exact ⟨rfl, rfl⟩

/-- A heartbeat is total and atomic unless its session is open and its interval exceeds a `u64` of
milliseconds. -/
theorem heartbeat_totalAtomic_iff (g : Shared) (interval : Duration) :
    TotalAtomic g interval ↔ ¬ (g.isSessionOpen = true ∧ 2 ^ 64 ≤ interval.asMillis) := by
  constructor
  · rintro h ⟨hg, hm⟩
    exact (h.returns [] g .panicked (beat_tooLong hg hm)).2.1 rfl
  · intro h
    by_cases hg : g.isSessionOpen = true
    · by_cases hi : interval.nanos = 0
      · exact totalAtomic_of_refused (e := .timeout "heartbeat interval is zero") (by simp [start, hg, hi, fail])
      · have hm : ¬ 2 ^ 64 ≤ interval.asMillis := fun hm => h ⟨hg, hm⟩
        have hrun : ∀ as g' p, beat g interval as = some (g', p) → Beating g g' p ∧ as.length + stepsLeft p ≤ 6 := by
          intro as g' p hb
          rw [beat_open hg hi hm] at hb
          exact Beating.run (s := (g, .beatCheck _)) ⟨rfl, rfl⟩ hb
        refine ⟨fun as g' p hb => ?_, fun hbad => absurd hbad (not_or.2 ⟨hi, hm⟩), fun as g' e hb => ?_⟩
        · obtain ⟨hbeat, hle⟩ := hrun as g' p hb
          refine ⟨by omega, fun hp => ?_, hbeat.canGoOn⟩
          rw [hp] at hbeat
          exact hbeat
        · exact (hrun as g' _ hb).1
    · exact totalAtomic_of_refused (e := .invalidState "must connect before heartbeat") (by simp [start, hg, fail])

/-- The interval of 2 ^ 64 milliseconds in an open session. -/
theorem heartbeat_panics : ¬ TotalAtomic { state := .loggedIn, stream := some "127.0.0.1:9000" }
    ⟨2 ^ 64 * 1000000⟩ := by
  intro h
  exact (h.returns [] _ .panicked rfl).2.1 rfl

end Tcp

/-- The in-memory client has the order right: an error leaves it as it is, whatever the interval. -/
theorem Mock.heartbeat_atomic (m : Mock) (now : Nat) (interval : Tcp.Duration) :
    (interval.nanos = 0 ∨ 2 ^ 64 ≤ interval.asMillis → ∃ e, (m.heartbeat now interval).2 = .error e) ∧
    ∀ e, (m.heartbeat now interval).2 = .error e → (m.heartbeat now interval).1 = m := by
  unfold heartbeat
  split
  · exact ⟨fun _ => ⟨_, rfl⟩, fun _ _ => rfl⟩
  · exact ⟨fun _ => ⟨_, rfl⟩, fun _ _ => rfl⟩
  · split_ifs with hi hm
    · exact ⟨fun _ => ⟨_, rfl⟩, fun _ _ => rfl⟩
    · exact ⟨fun _ => ⟨_, rfl⟩, fun _ _ => rfl⟩
    · exact ⟨fun h => absurd h (not_or.2 ⟨hi, hm⟩), fun e he => by cases he⟩

end NapCat.QQClient
