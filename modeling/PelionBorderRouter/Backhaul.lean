import Mathlib.Algebra.GroupWithZero.Nat
import Mathlib.Data.List.Basic
import PelionBorderRouter.Config
import PelionBorderRouter.Lib.Run

/-!
# PelionBorderRouter.Backhaul

`backhaul_connect` of `main_app.cpp`: connect the backhaul interface, with a
pause that grows with every failed attempt.

The events of the machine are the calls on the interface with what they
return, and the pauses, so a run is the call trace so far.  It is a trace
of attempts: `callsFrom` writes down what a list of attempts looks like from
outside, and `backhaul_discipline` says that the runs are the prefixes of
these traces.  The pauses follow `min (1000 * k) 300000` as long as the
product can be represented (`backoff_in_range_iff`): the limit is applied to
the product, not to the count.
-/

namespace PelionBorderRouter

/-! ## backhaul_connect -/

/-- What the function does next; the label `retry` is at `disconnect`. -/
inductive BackhaulPc where
  | connect
  | getIpAddress
  | disconnect
  | sleepFor
  | returned (status : AppStatus)
deriving DecidableEq, Repr

/-- The variables of the function. -/
structure Backhaul where
  pc : BackhaulPc
  retryCount : Int32
  nextRetryInterval : Int32
  backhaulConnected : Bool
deriving DecidableEq

/-- The calls it makes, with what the interface returns. -/
inductive BackhaulCall where
  | connect (status : NsapiError)
  | getIpAddress (status : NsapiError)
  | disconnect
  | sleepFor (interval : Int32)
deriving DecidableEq

/-- The interval after `retryCount` attempts. -/
def nextRetryInterval (retryCount : Int32) : Int32 :=
  let interval := backhaulConnectionRetryTimeout * retryCount
  if backhaulConnectionRetryTimeoutMax < interval then backhaulConnectionRetryTimeoutMax
  else interval

/-- `connect` has given a connection. -/
def Connects (status : NsapiError) : Prop := status = .ok ∨ status = .isConnected

instance (status : NsapiError) : Decidable (Connects status) := instDecidableOr

namespace Backhaul

/-- The head of the loop: `while (!backhaul_connected)`. -/
def whileHead (s : Backhaul) : Backhaul :=
  if s.backhaulConnected then { s with pc := .returned .success } else { s with pc := .connect }

/-- The function up to the loop; `none` for a `NULL` interface. -/
def enter : Option Handle → Backhaul
  | none => ⟨.returned .fail, 0, 0, false⟩
  | some _ => whileHead ⟨.connect, 0, 0, false⟩

/-- One call, and what follows up to the next one. -/
def step (s : Backhaul) (e : BackhaulCall) : Option Backhaul :=
  match s.pc, e with
  | .connect, .connect status =>
      let s := { s with retryCount := s.retryCount + 1 }
      if Connects status then some { s with pc := .getIpAddress }
      else some { s with pc := .disconnect }
  | .getIpAddress, .getIpAddress status =>
      if status ≠ .ok then some { s with pc := .disconnect }
      else some (whileHead { s with backhaulConnected := true })
  | .disconnect, .disconnect =>
      some { s with nextRetryInterval := PelionBorderRouter.nextRetryInterval s.retryCount
                    pc := .sleepFor }
  | .sleepFor, .sleepFor interval =>
      if interval = s.nextRetryInterval then some s.whileHead else none
  | _, _ => none

end Backhaul

/-- `backhaul_connect` on `backhaul_interface`. -/
def backhaulConnect (backhaulInterface : Option Handle) : Machine Backhaul BackhaulCall :=
  ⟨Backhaul.enter backhaulInterface, Backhaul.step⟩

/-! ## attempts -/

/-- What the interface returns in one attempt; `getIpAddress` is what it would
return, should it be asked. -/
structure Attempt where
  connect : NsapiError
  getIpAddress : NsapiError
deriving DecidableEq

namespace Attempt

def Succeeds (a : Attempt) : Prop := Connects a.connect ∧ a.getIpAddress = .ok

instance (a : Attempt) : Decidable a.Succeeds := instDecidableAnd

/-- The calls of an attempt: the address is asked for only on a connection. -/
def calls (a : Attempt) : List BackhaulCall :=
  if Connects a.connect then [.connect a.connect, .getIpAddress a.getIpAddress]
  else [.connect a.connect]

end Attempt

def AllFail (as : List Attempt) : Prop := ∀ a ∈ as, ¬ a.Succeeds

theorem AllFail.concat {as : List Attempt} {a : Attempt} (hfail : AllFail as) (ha : ¬ a.Succeeds) :
    AllFail (as ++ [a]) := by
  intro b hb
  cases List.mem_append.mp hb with
  | inl hb => exact hfail b hb
  | inr hb => exact List.mem_singleton.mp hb ▸ ha

/-- The interval after the `k`-th failed attempt. -/
def retryInterval (k : Nat) : Int32 := nextRetryInterval (Int32.ofNat k)

/-- What follows the `k`-th failed attempt. -/
def retryCalls (k : Nat) : List BackhaulCall := [.disconnect, .sleepFor (retryInterval k)]

/-- The call trace of some attempts, `k` having failed before: after each
failed one a disconnect and a pause, after the first successful one nothing
more. -/
def callsFrom (k : Nat) : List Attempt → List BackhaulCall
  | [] => []
  | a :: as =>
      if a.Succeeds then a.calls
      else a.calls ++ retryCalls (k + 1) ++ callsFrom (k + 1) as

theorem callsFrom_append {k : Nat} {failed as : List Attempt} (hfail : AllFail failed) :
    callsFrom k (failed ++ as) = callsFrom k failed ++ callsFrom (k + failed.length) as := by
  induction failed generalizing k with
  | nil => rfl
  | cons a failed ih =>
      have ha : ¬ a.Succeeds := hfail a (by simp)
      have hrest : AllFail failed := fun b hb => hfail b (List.mem_cons_of_mem a hb)
      have hlen : k + (failed.length + 1) = k + 1 + failed.length := by omega
      rw [List.cons_append, callsFrom, callsFrom, if_neg ha, if_neg ha, ih hrest,
        List.length_cons, hlen]
      simp only [List.append_assoc]

/-- The trace of one attempt more. -/
theorem callsFrom_concat {failed : List Attempt} {a : Attempt}
    (hfail : AllFail failed) :
    callsFrom 0 (failed ++ [a]) = callsFrom 0 failed ++
      if a.Succeeds then a.calls else a.calls ++ retryCalls (failed.length + 1) := by
  rw [callsFrom_append hfail, Nat.zero_add]
  simp [callsFrom]

/-! ## one attempt of the code -/

/-- The loop is about to try again, `k` attempts having failed. -/
structure AtLoop (k : Nat) (s : Backhaul) : Prop where
  pc : s.pc = .connect
  retryCount : s.retryCount = Int32.ofNat k
  notConnected : s.backhaulConnected = false

theorem AtLoop.retryCount_succ {k : Nat} {s : Backhaul} (hs : AtLoop k s) :
    s.retryCount + 1 = Int32.ofNat (k + 1) := by
  rw [hs.retryCount, Int32.ofNat_add]
  rfl

theorem atLoop_enter (iface : Handle) : AtLoop 0 (Backhaul.enter (some iface)) := ⟨rfl, rfl, rfl⟩

/-- A failed attempt comes back to the head of the loop. -/
theorem atLoop_of_fails {k : Nat} {s : Backhaul} {a : Attempt} (hs : AtLoop k s)
    (hfail : ¬ a.Succeeds) :
    ∃ s', (a.calls ++ retryCalls (k + 1)).foldlM Backhaul.step s = some s' ∧ AtLoop (k + 1) s' := by
  have hcount := hs.retryCount_succ
  have hinterval : nextRetryInterval (s.retryCount + 1) = retryInterval (k + 1) := by
    rw [hcount, retryInterval]
  refine ⟨⟨.connect, s.retryCount + 1, retryInterval (k + 1), false⟩, ?_, rfl, hcount, rfl⟩
  by_cases hconnects : Connects a.connect
  · have hip : a.getIpAddress ≠ .ok := fun hip => hfail ⟨hconnects, hip⟩
    simp [Attempt.calls, retryCalls, hconnects, hip, Backhaul.step, Backhaul.whileHead, hs.pc,
      hs.notConnected, hinterval]
  · simp [Attempt.calls, retryCalls, hconnects, Backhaul.step, Backhaul.whileHead, hs.pc,
      hs.notConnected, hinterval]

/-- A successful one returns. -/
theorem returned_of_succeeds {k : Nat} {s : Backhaul} {a : Attempt} (hs : AtLoop k s)
    (ha : a.Succeeds) :
    ∃ s', a.calls.foldlM Backhaul.step s = some s' ∧ s'.pc = .returned .success := by
  refine ⟨⟨.returned .success, s.retryCount + 1, s.nextRetryInterval, true⟩, ?_, rfl⟩
  simp [Attempt.calls, ha.1, ha.2, Backhaul.step, Backhaul.whileHead, hs.pc]

/-- The code goes through any attempts, and has returned when one of them
succeeds. -/
theorem exists_foldlM_callsFrom {k : Nat} {s : Backhaul} (hs : AtLoop k s) (as : List Attempt) :
    ∃ s', (callsFrom k as).foldlM Backhaul.step s = some s' ∧
      (s'.pc = .returned .success ↔ ∃ a ∈ as, a.Succeeds) := by
  induction as generalizing k s with
  | nil => exact ⟨s, rfl, by simp [hs.pc]⟩
  | cons a as ih =>
      by_cases ha : a.Succeeds
      · obtain ⟨s', hrun, hret⟩ := returned_of_succeeds hs ha
        refine ⟨s', ?_, by simp [hret, ha]⟩
        rw [callsFrom, if_pos ha, hrun]
      · obtain ⟨s', hrun, hs'⟩ := atLoop_of_fails hs ha
        obtain ⟨s'', hrun', hret⟩ := ih hs'
        refine ⟨s'', ?_, by simp [hret, ha]⟩
        rw [callsFrom, if_neg ha, List.foldlM_append, hrun]
        exact hrun'

/-! ## call traces -/

/-- How the trace so far and the state go together. -/
inductive Disciplined : List BackhaulCall → Backhaul → Prop
  | loop {s : Backhaul} (failed : List Attempt) (hfail : AllFail failed)
      (hs : AtLoop failed.length s) : Disciplined (callsFrom 0 failed) s
  | connected {s : Backhaul} (failed : List Attempt) (hfail : AllFail failed)
      (status : NsapiError) (hconnects : Connects status) (hpc : s.pc = .getIpAddress)
      (hcount : s.retryCount = Int32.ofNat (failed.length + 1))
      (hnot : s.backhaulConnected = false) :
      Disciplined (callsFrom 0 failed ++ [.connect status]) s
  | failing {s : Backhaul} (failed : List Attempt) (hfail : AllFail failed)
      (a : Attempt) (ha : ¬ a.Succeeds) (hpc : s.pc = .disconnect)
      (hcount : s.retryCount = Int32.ofNat (failed.length + 1))
      (hnot : s.backhaulConnected = false) : Disciplined (callsFrom 0 failed ++ a.calls) s
  | pausing {s : Backhaul} (failed : List Attempt) (hfail : AllFail failed)
      (a : Attempt) (ha : ¬ a.Succeeds) (hpc : s.pc = .sleepFor)
      (hcount : s.retryCount = Int32.ofNat (failed.length + 1))
      (hinterval : s.nextRetryInterval = retryInterval (failed.length + 1))
      (hnot : s.backhaulConnected = false) :
      Disciplined (callsFrom 0 failed ++ a.calls ++ [.disconnect]) s
  | returned {s : Backhaul} (failed : List Attempt) (hfail : AllFail failed)
      (a : Attempt) (ha : a.Succeeds) (hpc : s.pc = .returned .success) :
      Disciplined (callsFrom 0 failed ++ a.calls) s

/-- Each call goes on with the trace as it must. -/
theorem disciplined_step {pre : List BackhaulCall} {s s' : Backhaul} {e : BackhaulCall}
    (hs : Disciplined pre s) (hstep : s.step e = some s') : Disciplined (pre ++ [e]) s' := by
  cases hs with
  | loop failed hfail hs =>
      cases e with
      | connect status =>
          have hcount := hs.retryCount_succ
          by_cases hconnects : Connects status
          · obtain rfl := by simpa [Backhaul.step, hs.pc, hconnects] using hstep
            exact .connected failed hfail status hconnects rfl hcount hs.notConnected
          · obtain rfl := by simpa [Backhaul.step, hs.pc, hconnects] using hstep
            have ha : ¬ (⟨status, .ok⟩ : Attempt).Succeeds := fun h => hconnects h.1
            have hcalls : [.connect status] = (⟨status, .ok⟩ : Attempt).calls := by
              simp [Attempt.calls, hconnects]
            rw [hcalls]
            exact .failing failed hfail _ ha rfl hcount hs.notConnected
      | _ => simp [Backhaul.step, hs.pc] at hstep
  | connected failed hfail status hconnects hpc hcount hnot =>
      cases e with
      | getIpAddress ip =>
          have hcalls : callsFrom 0 failed ++ [.connect status] ++ [.getIpAddress ip] =
              callsFrom 0 failed ++ (⟨status, ip⟩ : Attempt).calls := by
            simp [Attempt.calls, hconnects]
          rw [hcalls]
          by_cases hip : ip = .ok
          · obtain rfl := by simpa [Backhaul.step, hpc, hip, Backhaul.whileHead] using hstep
            exact .returned failed hfail _ ⟨hconnects, hip⟩ rfl
          · obtain rfl := by simpa [Backhaul.step, hpc, hip] using hstep
            exact .failing failed hfail _ (fun h => hip h.2) rfl hcount hnot
      | _ => simp [Backhaul.step, hpc] at hstep
  | failing failed hfail a ha hpc hcount hnot =>
      cases e with
      | disconnect =>
          obtain rfl := by simpa [Backhaul.step, hpc] using hstep
          exact .pausing failed hfail a ha rfl hcount (congrArg nextRetryInterval hcount) hnot
      | _ => simp [Backhaul.step, hpc] at hstep
  | pausing failed hfail a ha hpc hcount hinterval hnot =>
      cases e with
      | sleepFor interval =>
          obtain ⟨rfl, rfl⟩ := by simpa [Backhaul.step, hpc, Backhaul.whileHead, hnot] using hstep
          have hcalls : callsFrom 0 failed ++ a.calls ++ [.disconnect] ++
              [.sleepFor s.nextRetryInterval] = callsFrom 0 (failed ++ [a]) := by
            rw [callsFrom_concat hfail, if_neg ha, hinterval]
            simp [retryCalls]
          rw [hcalls]
          refine .loop _ (hfail.concat ha) ⟨rfl, ?_, rfl⟩
          rw [List.length_append]
          exact hcount
      | _ => simp [Backhaul.step, hpc] at hstep
  | returned failed hfail a ha hpc => simp [Backhaul.step, hpc] at hstep

/-- The trace is a beginning of one of attempts. -/
theorem Disciplined.exists_attempts {pre : List BackhaulCall} {s : Backhaul}
    (hs : Disciplined pre s) : ∃ as, pre <+: callsFrom 0 as := by
  cases hs with
  | loop failed hfail hs => exact ⟨failed, List.prefix_refl _⟩
  | connected failed hfail status hconnects hpc hcount hnot =>
      refine ⟨failed ++ [⟨status, .ok⟩], ?_⟩
      rw [callsFrom_concat hfail, if_pos ⟨hconnects, rfl⟩, List.prefix_append_right_inj]
      simp [Attempt.calls, hconnects]
  | failing failed hfail a ha hpc hcount hnot =>
      refine ⟨failed ++ [a], ?_⟩
      rw [callsFrom_concat hfail, if_neg ha, ← List.append_assoc]
      exact List.prefix_append _ _
  | pausing failed hfail a ha hpc hcount hinterval hnot =>
      refine ⟨failed ++ [a], ?_⟩
      rw [callsFrom_concat hfail, if_neg ha, List.append_assoc, List.prefix_append_right_inj,
        List.prefix_append_right_inj]
      simp [retryCalls]
  | returned failed hfail a ha hpc =>
      refine ⟨failed ++ [a], ?_⟩
      rw [callsFrom_concat hfail, if_pos ha]

theorem Disciplined.pc_ne_fail {pre : List BackhaulCall} {s : Backhaul} (hs : Disciplined pre s) :
    s.pc ≠ .returned .fail := by
  cases hs with
  | loop failed hfail hs => simp [hs.pc]
  | connected failed hfail status hconnects hpc hcount hnot => simp [hpc]
  | failing failed hfail a ha hpc hcount hnot => simp [hpc]
  | pausing failed hfail a ha hpc hcount hinterval hnot => simp [hpc]
  | returned failed hfail a ha hpc => simp [hpc]

/-- The function returns at the end of the first successful attempt. -/
theorem Disciplined.succeeded {pre : List BackhaulCall} {s : Backhaul} (hs : Disciplined pre s)
    (hreturned : s.pc = .returned .success) :
    ∃ failed a, AllFail failed ∧ a.Succeeds ∧ pre = callsFrom 0 (failed ++ [a]) := by
  cases hs with
  | loop failed hfail hs => simp [hs.pc] at hreturned
  | connected failed hfail status hconnects hpc hcount hnot => simp [hpc] at hreturned
  | failing failed hfail a ha hpc hcount hnot => simp [hpc] at hreturned
  | pausing failed hfail a ha hpc hcount hinterval hnot => simp [hpc] at hreturned
  | returned failed hfail a ha hpc =>
      exact ⟨failed, a, hfail, ha, by rw [callsFrom_concat hfail, if_pos ha]⟩

theorem holds_disciplined (iface : Handle) (h : List BackhaulCall) :
    (backhaulConnect (some iface)).Holds Disciplined h := by
  intro pre s _ hrun
  have hstart : Disciplined [] (Backhaul.enter (some iface)) :=
    .loop [] (fun _ ha => absurd ha List.not_mem_nil) (atLoop_enter iface)
  exact (backhaulConnect (some iface)).invariant hstart
    (fun _ _ _ _ _ hs hstep => disciplined_step hs hstep) hrun

/-- **Connection discipline**: the code goes through every sequence of
outcomes, and has returned `APP_STATUS_SUCCESS` exactly when an attempt has
succeeded.  And in every state of a run the calls so far are a beginning of
such a trace, the function has not failed, and it has returned exactly when
the last call ended the first successful attempt. -/
theorem backhaul_discipline (iface : Handle) :
    (∀ as, ∃ s, (backhaulConnect (some iface)).run (callsFrom 0 as) = some s ∧
        (s.pc = .returned .success ↔ ∃ a ∈ as, a.Succeeds)) ∧
      ∀ h, (backhaulConnect (some iface)).Holds (fun pre s =>
        (∃ as, pre <+: callsFrom 0 as) ∧ s.pc ≠ .returned .fail ∧
          (s.pc = .returned .success ↔
            ∃ failed a, AllFail failed ∧ a.Succeeds ∧ pre = callsFrom 0 (failed ++ [a]))) h := by
  have hgoes : ∀ as, ∃ s, (backhaulConnect (some iface)).run (callsFrom 0 as) = some s ∧
      (s.pc = .returned .success ↔ ∃ a ∈ as, a.Succeeds) :=
    exists_foldlM_callsFrom (atLoop_enter iface)
  refine ⟨hgoes, fun h pre s hp hrun => ?_⟩
  have hdisc := holds_disciplined iface h pre s hp hrun
  refine ⟨hdisc.exists_attempts, hdisc.pc_ne_fail, fun hpc => hdisc.succeeded hpc, ?_⟩
  rintro ⟨failed, a, hfail, ha, rfl⟩
  obtain ⟨s', hrun', hret⟩ := hgoes (failed ++ [a])
  obtain rfl : s = s' := Option.some.inj (hrun.symm.trans hrun')
  exact hret.mpr ⟨a, by simp, ha⟩

/-! ## the pauses -/

/-- The attempts a trace has begun. -/
def attempts (h : List BackhaulCall) : Nat :=
  h.countP fun e => match e with
    | .connect _ => true
    | _ => false

theorem attempts_append (h h' : List BackhaulCall) :
    attempts (h ++ h') = attempts h + attempts h' := List.countP_append

theorem attempts_calls (a : Attempt) : attempts a.calls = 1 := by
  unfold Attempt.calls
  split <;> rfl

theorem attempts_callsFrom {k : Nat} {failed : List Attempt} (hfail : AllFail failed) :
    attempts (callsFrom k failed) = failed.length := by
  induction failed generalizing k with
  | nil => rfl
  | cons a failed ih =>
      have ha : ¬ a.Succeeds := hfail a (by simp)
      have hrest : AllFail failed := fun b hb => hfail b (List.mem_cons_of_mem a hb)
      have hretry : attempts (retryCalls (k + 1)) = 0 := rfl
      rw [callsFrom, if_neg ha, attempts_append, attempts_append, attempts_calls, hretry, ih hrest,
        List.length_cons]
      omega

theorem attempts_failing {failed : List Attempt} {a : Attempt} (hfail : AllFail failed) :
    attempts (callsFrom 0 failed ++ a.calls ++ [.disconnect]) = failed.length + 1 := by
  rw [attempts_append, attempts_append, attempts_callsFrom hfail, attempts_calls]
  rfl

/-- The product is exact, the pause is `min (1000 * k) 300000` after `k`
attempts, within its bounds, and none was longer before. -/
structure BackoffInRange (pre : List BackhaulCall) (s : Backhaul) (interval : Int32) : Prop where
  exact : (backhaulConnectionRetryTimeout * s.retryCount).toInt = 1000 * attempts pre
  eq_min : interval.toInt = min (1000 * (attempts pre : Int)) 300000
  ge : 1000 ≤ interval.toInt
  le : interval.toInt ≤ 300000
  mono : ∀ earlier, .sleepFor earlier ∈ pre → earlier.toInt ≤ interval.toInt

/-- The product is exact as long as it can be represented. -/
theorem toInt_timeout_mul_iff (k : Nat) :
    (backhaulConnectionRetryTimeout * Int32.ofNat k).toInt = 1000 * k ↔ 1000 * k < 2 ^ 31 := by
  constructor
  · intro hexact
    have hlt := Int32.toInt_lt (backhaulConnectionRetryTimeout * Int32.ofNat k)
    omega
  · intro hlt
    have htimeout : backhaulConnectionRetryTimeout.toInt = 1000 := rfl
    have hk : (Int32.ofNat k).toInt = k := Int32.toInt_ofNat_of_lt (by omega)
    rw [Int32.toInt_mul, htimeout, hk]
    exact Int.bmod_eq_of_le (by omega) (by omega)

/-- Then the limit makes it the pause that is meant. -/
theorem toInt_retryInterval {k : Nat} (hlt : 1000 * k < 2 ^ 31) :
    (retryInterval k).toInt = min (1000 * (k : Int)) 300000 := by
  have hproduct := (toInt_timeout_mul_iff k).mpr hlt
  have hmax : backhaulConnectionRetryTimeoutMax.toInt = 300000 := rfl
  unfold retryInterval nextRetryInterval
  simp only [Int32.lt_iff_toInt_lt, hmax, hproduct]
  split
  · rw [hmax]
    omega
  · rw [hproduct]
    omega

/-- The pause after `pre` is the one of its latest attempt. -/
theorem Disciplined.sleeps {pre : List BackhaulCall} {s s' : Backhaul} {interval : Int32}
    (hs : Disciplined pre s) (hstep : s.step (.sleepFor interval) = some s') :
    s.retryCount = Int32.ofNat (attempts pre) ∧ interval = retryInterval (attempts pre) ∧
      0 < attempts pre := by
  cases hs with
  | loop failed hfail hs => simp [Backhaul.step, hs.pc] at hstep
  | connected failed hfail status hconnects hpc hcount hnot => simp [Backhaul.step, hpc] at hstep
  | failing failed hfail a ha hpc hcount hnot => simp [Backhaul.step, hpc] at hstep
  | pausing failed hfail a ha hpc hcount hinterval hnot =>
      obtain ⟨rfl, _⟩ := by simpa [Backhaul.step, hpc] using hstep
      rw [attempts_failing hfail]
      exact ⟨hcount, hinterval, Nat.succ_pos _⟩
  | returned failed hfail a ha hpc => simp [Backhaul.step, hpc] at hstep

/-- An earlier pause was the one of an earlier attempt. -/
theorem exists_retryInterval_of_mem {iface : Handle} {pre : List BackhaulCall} {s : Backhaul}
    {earlier : Int32} (hrun : (backhaulConnect (some iface)).run pre = some s)
    (hmem : .sleepFor earlier ∈ pre) : ∃ k ≤ attempts pre, earlier = retryInterval k := by
  obtain ⟨before, after, rfl⟩ := List.append_of_mem hmem
  have hprefix : before ++ [.sleepFor earlier] <+: before ++ .sleepFor earlier :: after :=
    ⟨after, by simp⟩
  obtain ⟨t, t', htakes⟩ := Machine.exists_takes_of_prefix hrun hprefix
  have hdisc := holds_disciplined iface before before t (List.prefix_refl _) htakes.2.1
  obtain ⟨_, hinterval, _⟩ := hdisc.sleeps htakes.2.2
  refine ⟨attempts before, ?_, hinterval⟩
  rw [attempts_append]
  exact Nat.le_add_right _ _

/-- A pause is right exactly when the product can be represented. -/
theorem backoffInRange_iff {iface : Handle} {pre : List BackhaulCall} {s s' : Backhaul}
    {interval : Int32} (hrun : (backhaulConnect (some iface)).run pre = some s)
    (hstep : s.step (.sleepFor interval) = some s') :
    BackoffInRange pre s interval ↔ 1000 * attempts pre < 2 ^ 31 := by
  have hdisc := holds_disciplined iface pre pre s (List.prefix_refl _) hrun
  obtain ⟨hcount, hinterval, hpos⟩ := hdisc.sleeps hstep
  have hproduct := toInt_timeout_mul_iff (attempts pre)
  constructor
  · intro hrange
    exact hproduct.mp (hcount ▸ hrange.exact)
  · intro hlt
    have hmin := hinterval ▸ toInt_retryInterval hlt
    refine ⟨hcount ▸ hproduct.mpr hlt, hmin, by omega, by omega, fun earlier hmem => ?_⟩
    obtain ⟨k, hk, rfl⟩ := exists_retryInterval_of_mem hrun hmem
    rw [toInt_retryInterval (k := k) (by omega), hmin]
    omega

/-- **Back-off**: in a run every pause is exact, `min (1000 * k) 300000` and
none shorter than one before, exactly when no pause comes after so many
failed attempts that the product cannot be represented in 32 bits. -/
theorem backoff_in_range_iff (iface : Handle) (h : List BackhaulCall) :
    (backhaulConnect (some iface)).Always
        (fun pre s e => ∀ interval, e = .sleepFor interval → BackoffInRange pre s interval) h ↔
      (backhaulConnect (some iface)).Always
        (fun pre _ e => (∃ interval, e = .sleepFor interval) → 1000 * attempts pre < 2 ^ 31) h := by
  constructor
  · intro hrange pre s e s' htakes
    rintro ⟨interval, rfl⟩
    exact (backoffInRange_iff htakes.2.1 htakes.2.2).mp (hrange pre s _ s' htakes interval rfl)
  · intro hlt pre s e s' htakes interval he
    subst he
    exact (backoffInRange_iff htakes.2.1 htakes.2.2).mpr (hlt pre s _ s' htakes ⟨interval, rfl⟩)

/-- A run with one failed attempt too many does not keep the pauses in range. -/
theorem not_backoffInRange_of_overflow {failed : List Attempt} {a : Attempt} (iface : Handle)
    (hfail : AllFail failed) (ha : ¬ a.Succeeds) (hlong : 2 ^ 31 ≤ 1000 * (failed.length + 1)) :
    ¬ (backhaulConnect (some iface)).Always
      (fun pre s e => ∀ interval, e = .sleepFor interval → BackoffInRange pre s interval)
      (callsFrom 0 (failed ++ [a])) := by
  intro hrange
  have htrace : callsFrom 0 (failed ++ [a]) = callsFrom 0 failed ++ a.calls ++ [.disconnect] ++
      [.sleepFor (retryInterval (failed.length + 1))] := by
    rw [callsFrom_concat hfail, if_neg ha]
    simp [retryCalls]
  have hattempts := attempts_failing (a := a) hfail
  obtain ⟨t, hrun, _⟩ := exists_foldlM_callsFrom (atLoop_enter iface) (failed ++ [a])
  rw [htrace] at hrange hrun
  obtain ⟨s, s', htakes⟩ := Machine.exists_takes_of_prefix (m := backhaulConnect (some iface)) hrun
    (List.prefix_refl _)
  have hexact := (backoffInRange_iff htakes.2.1 htakes.2.2).mp (hrange _ s _ s' htakes _ rfl)
  omega

/-- `connect` gives an error. -/
def failedAttempt : Attempt := ⟨.other (-1), .ok⟩

/-- After 2147484 failed attempts the product has overflowed, and the pause is
negative. -/
theorem backoff_overflows :
    ¬ (backhaulConnect (some 1)).Always
        (fun pre s e => ∀ interval, e = .sleepFor interval → BackoffInRange pre s interval)
        (callsFrom 0 (List.replicate 2147483 failedAttempt ++ [failedAttempt])) ∧
      (retryInterval 2147484).toInt < 0 := by
  have ha : ¬ failedAttempt.Succeeds := by decide
  have hfail : AllFail (List.replicate 2147483 failedAttempt) := by
    intro a hmem
    rw [List.eq_of_mem_replicate hmem]
    exact ha
  have hlong : 2 ^ 31 ≤ 1000 * ((List.replicate 2147483 failedAttempt).length + 1) := by
    rw [List.length_replicate]
    decide
  exact ⟨not_backoffInRange_of_overflow 1 hfail ha hlong, by decide⟩

end PelionBorderRouter
