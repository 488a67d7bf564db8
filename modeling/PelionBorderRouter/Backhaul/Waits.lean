import Mathlib.Tactic.Ring
import PelionBorderRouter.Backhaul
import PelionBorderRouter.Lib.Account

/-!
# PelionBorderRouter.Backhaul.Waits

How long `backhaul_connect` waits altogether.  Its pauses grow by a second
with each failed attempt, up to five minutes, so after `k` of them it has
waited `500 * k * (k + 1)` milliseconds as long as `k ≤ 300`, and five
minutes more with each one from there on (`backhaul_waits`).
-/

namespace PelionBorderRouter

/-- The time a step pauses, in milliseconds. -/
def slept (_ : Backhaul) : BackhaulCall → Int
  | .sleepFor interval => interval.toInt
  | _ => 0

/-- The pauses of a trace. -/
def pauses (h : List BackhaulCall) : Nat :=
  h.countP fun e => match e with
    | .sleepFor _ => true
    | _ => false

/-- The time `k` pauses take. -/
def waited (k : Nat) : Int :=
  if k ≤ 300 then 500 * k * (k + 1) else 45150000 + 300000 * (k - 300)

/-! ## pauses and attempts -/

theorem pauses_append (h h' : List BackhaulCall) : pauses (h ++ h') = pauses h + pauses h' :=
  List.countP_append

theorem pauses_calls (a : Attempt) : pauses a.calls = 0 := by
  unfold Attempt.calls
  split <;> rfl

/-- Each failed attempt is followed by a pause. -/
theorem pauses_callsFrom {k : Nat} {failed : List Attempt} (hfail : AllFail failed) :
    pauses (callsFrom k failed) = failed.length := by
  induction failed generalizing k with
  | nil => rfl
  | cons a failed ih =>
      have ha : ¬ a.Succeeds := hfail a (by simp)
      have hrest : AllFail failed := fun b hb => hfail b (List.mem_cons_of_mem a hb)
      have hretry : pauses (retryCalls (k + 1)) = 1 := rfl
      rw [callsFrom, if_neg ha, pauses_append, pauses_append, pauses_calls, hretry, ih hrest,
        List.length_cons]
      omega

/-- A pause comes after one attempt more than there have been pauses. -/
theorem Disciplined.attempts_of_sleeps {pre : List BackhaulCall} {s s' : Backhaul}
    {interval : Int32} (hs : Disciplined pre s)
    (hstep : s.step (.sleepFor interval) = some s') : attempts pre = pauses pre + 1 := by
  cases hs with
  | loop failed hfail hs => simp [Backhaul.step, hs.pc] at hstep
  | connected failed hfail status hconnects hpc hcount hnot => simp [Backhaul.step, hpc] at hstep
  | failing failed hfail a ha hpc hcount hnot => simp [Backhaul.step, hpc] at hstep
  | pausing failed hfail a ha hpc hcount hinterval hnot =>
      rw [attempts_failing hfail, pauses_append, pauses_append, pauses_callsFrom hfail,
        pauses_calls]
      rfl
  | returned failed hfail a ha hpc => simp [Backhaul.step, hpc] at hstep

/-- The function returns after one attempt more than there have been pauses. -/
theorem Disciplined.attempts_of_returned {pre : List BackhaulCall} {s : Backhaul}
    (hs : Disciplined pre s) (hreturned : s.pc = .returned .success) :
    attempts pre = pauses pre + 1 := by
  obtain ⟨failed, a, hfail, ha, rfl⟩ := hs.succeeded hreturned
  rw [callsFrom_concat hfail, if_pos ha, attempts_append, pauses_append, attempts_callsFrom hfail,
    pauses_callsFrom hfail, attempts_calls, pauses_calls]

/-! ## the time -/

/-- One pause more. -/
theorem waited_succ (k : Nat) :
    waited (k + 1) = waited k + min (1000 * ((k + 1 : Nat) : Int)) 300000 := by
  unfold waited
  by_cases hk : k + 1 ≤ 300
  · have hmin : min (1000 * ((k + 1 : Nat) : Int)) 300000 = 1000 * ((k + 1 : Nat) : Int) := by
      omega
    rw [if_pos hk, if_pos (by omega), hmin]
    push_cast
    ring
  · have hmin : min (1000 * ((k + 1 : Nat) : Int)) 300000 = 300000 := by omega
    rw [if_neg hk, hmin]
    by_cases hlast : k ≤ 300
    · obtain rfl : k = 300 := by omega
      rfl
    · rw [if_neg hlast]
      omega

/-- **The whole wait**: in every run whose attempts can be counted in the
interval, the pauses so far add up to `waited`, and when `backhaul_connect`
returns it has paused once for each failed attempt. -/
theorem backhaul_waits (iface : Handle) {h : List BackhaulCall} {s : Backhaul}
    (hrun : (backhaulConnect (some iface)).run h = some s) (hlt : 1000 * attempts h < 2 ^ 31) :
    (backhaulConnect (some iface)).total slept h = waited (pauses h) ∧
      (s.pc = .returned .success →
        (backhaulConnect (some iface)).total slept h = waited (attempts h - 1)) := by
  have htotal : (backhaulConnect (some iface)).total slept h = waited (pauses h) := by
    refine (backhaulConnect (some iface)).invariant (R := fun h _ => 1000 * attempts h < 2 ^ 31 →
      (backhaulConnect (some iface)).total slept h = waited (pauses h)) ?_ ?_ hrun hlt
    · exact fun _ => rfl
    · intro pre s e s' hpre ih hstep hlt
      rw [attempts_append] at hlt
      have hdisc := holds_disciplined iface pre pre s (List.prefix_refl _) hpre
      rw [Machine.total_concat hpre hstep, ih (by omega), pauses_append]
      cases e with
      | sleepFor interval =>
          obtain ⟨_, rfl, _⟩ := hdisc.sleeps hstep
          have hpauses := hdisc.attempts_of_sleeps hstep
          have hone : pauses [.sleepFor (retryInterval (attempts pre))] = 1 := rfl
          rw [hone, waited_succ, ← hpauses]
          exact congrArg _ (toInt_retryInterval (by omega))
      | _ => exact add_zero _
  refine ⟨htotal, fun hreturned => ?_⟩
  have hdisc := holds_disciplined iface h h s (List.prefix_refl _) hrun
  rw [htotal, hdisc.attempts_of_returned hreturned, Nat.add_sub_cancel]

/-- Two attempts fail, the third succeeds: three seconds. -/
theorem backhaul_waits_two :
    (backhaulConnect (some 1)).total slept
      (callsFrom 0 [failedAttempt, failedAttempt, ⟨.ok, .ok⟩]) = 3000 := by
  obtain ⟨s, hrun, _⟩ := exists_foldlM_callsFrom (atLoop_enter 1)
    [failedAttempt, failedAttempt, ⟨.ok, .ok⟩]
  exact (backhaul_waits 1 (h := callsFrom 0 [failedAttempt, failedAttempt, ⟨.ok, .ok⟩]) hrun
    (by decide)).1.trans (by decide)

end PelionBorderRouter
