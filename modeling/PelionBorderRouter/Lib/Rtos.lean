import Mathlib.Data.List.Nodup

/-!
# PelionBorderRouter.Lib.Rtos

The two primitives of the operating system an event-driven program waits on.

* `Semaphore limit` counts tokens up to `limit`; a release at the limit is
  refused and changes nothing.
* `EventQueue κ` keeps callbacks of type `κ` until they are dispatched, once
  or periodically.  Every accepted event gets an id of its own, which the
  queue never gives out again.  Events live in a memory of fixed size, so
  posting one can be refused.
-/

universe u

/-! ## counting semaphore -/

/-- A semaphore holding at most `limit` tokens. -/
structure Semaphore (limit : Nat) where
  tokens : Nat
  tokens_le : tokens ≤ limit
deriving DecidableEq, Repr

namespace Semaphore

variable {limit : Nat}

def empty (limit : Nat) : Semaphore limit := ⟨0, Nat.zero_le limit⟩

def release (s : Semaphore limit) : Semaphore limit :=
  if h : s.tokens < limit then ⟨s.tokens + 1, h⟩ else s

/-- Take a token; `none` while there is none, where the caller blocks. -/
def acquire? (s : Semaphore limit) : Option (Semaphore limit) :=
  if 0 < s.tokens then some ⟨s.tokens - 1, Nat.le_trans (Nat.sub_le _ _) s.tokens_le⟩ else none

theorem isSome_acquire?_iff (s : Semaphore limit) : s.acquire?.isSome ↔ 0 < s.tokens := by
  unfold acquire?
  split <;> simp [*]

theorem not_isSome_acquire?_empty : ¬ (empty limit).acquire?.isSome := by
  simp [isSome_acquire?_iff, empty]

/-- After a release a token is there, also when it was refused. -/
theorem isSome_acquire?_release (s : Semaphore limit) (h : 0 < limit) :
    s.release.acquire?.isSome := by
  rw [isSome_acquire?_iff]
  unfold release
  split
  · exact Nat.succ_pos _
  · omega

end Semaphore

/-! ## event queue -/

/-- An event waiting in a queue, `delay` milliseconds from when it was
posted or last dispatched. -/
structure Queued (κ : Type u) where
  id : Nat
  callback : κ
  delay : Nat
  periodic : Bool
deriving DecidableEq, Repr

/-- An event queue: ids are fresh and pairwise different. -/
structure EventQueue (κ : Type u) where
  nextId : Nat
  pending : List (Queued κ)
  id_lt : ∀ q ∈ pending, q.id < nextId
  nodup : (pending.map Queued.id).Nodup

namespace EventQueue

variable {κ : Type u}

/-- The empty queue; `0` is the id `call_in` reports a refusal with. -/
def empty (κ : Type u) : EventQueue κ := ⟨1, [], by simp, List.nodup_nil⟩

/-- Add an event under the next id. -/
def push (queue : EventQueue κ) (callback : κ) (delay : Nat) (periodic : Bool) : EventQueue κ where
  nextId := queue.nextId + 1
  pending := ⟨queue.nextId, callback, delay, periodic⟩ :: queue.pending
  id_lt := by
    intro q hq
    cases List.mem_cons.mp hq with
    | inl h => exact h ▸ Nat.lt_succ_self _
    | inr h => exact Nat.lt_succ_of_lt (queue.id_lt q h)
  nodup := by
    refine List.nodup_cons.mpr ⟨fun hmem => ?_, queue.nodup⟩
    obtain ⟨q, hq, hid⟩ := List.mem_map.mp hmem
    exact absurd (queue.id_lt q hq) (by simp [hid])

/-- `call_in`: one dispatch after `delay`, if the queue has memory for it. -/
def callIn (queue : EventQueue κ) (accepted : Bool) (delay : Nat) (callback : κ) : EventQueue κ :=
  if accepted then queue.push callback delay false else queue

/-- `call_every`: a dispatch every `period`, if the queue has memory for it. -/
def callEvery (queue : EventQueue κ) (accepted : Bool) (period : Nat) (callback : κ) :
    EventQueue κ :=
  if accepted then queue.push callback period true else queue

/-- Dispatch the event `id`: which event it is, and the queue afterwards.  A
periodic event stays. -/
def dispatch (queue : EventQueue κ) (id : Nat) : Option (Queued κ × EventQueue κ) :=
  match queue.pending.find? (·.id == id) with
  | none => none
  | some q =>
      if q.periodic then some (q, queue)
      else some (q, {
        nextId := queue.nextId
        pending := queue.pending.eraseP (·.id == id)
        id_lt := fun p hp => queue.id_lt p (List.mem_of_mem_eraseP hp)
        nodup := queue.nodup.sublist (List.eraseP_sublist.map _) })

/-- How many pending events call `callback`. -/
def count [DecidableEq κ] (queue : EventQueue κ) (callback : κ) : Nat :=
  queue.pending.countP (·.callback = callback)

/-! ### what a dispatch takes -/

theorem find?_of_dispatch {queue queue' : EventQueue κ} {id : Nat} {q : Queued κ}
    (h : queue.dispatch id = some (q, queue')) :
    queue.pending.find? (·.id == id) = some q := by
  unfold dispatch at h
  cases hfind : queue.pending.find? (·.id == id) with
  | none => simp [hfind] at h
  | some p =>
      rw [hfind] at h
      by_cases hp : p.periodic = true <;> simp_all

/-- The dispatched event was pending under its id. -/
theorem mem_of_dispatch {queue queue' : EventQueue κ} {id : Nat} {q : Queued κ}
    (h : queue.dispatch id = some (q, queue')) : q ∈ queue.pending ∧ q.id = id := by
  have hfind := find?_of_dispatch h
  exact ⟨List.mem_of_find?_eq_some hfind, by simpa using List.find?_some hfind⟩

/-- A dispatch adds no event. -/
theorem mem_pending_of_dispatch {queue queue' : EventQueue κ} {id : Nat} {q p : Queued κ}
    (h : queue.dispatch id = some (q, queue')) (hp : p ∈ queue'.pending) : p ∈ queue.pending := by
  have hfind := find?_of_dispatch h
  simp only [dispatch, hfind] at h
  by_cases hper : q.periodic = true
  · obtain rfl : queue = queue' := by simpa [hper] using h
    exact hp
  · rw [if_neg hper, Option.some.injEq, Prod.mk.injEq] at h
    obtain ⟨_, rfl⟩ := h
    exact List.mem_of_mem_eraseP hp

/-- A dispatch gives out no id. -/
theorem nextId_of_dispatch {queue queue' : EventQueue κ} {id : Nat} {q : Queued κ}
    (h : queue.dispatch id = some (q, queue')) : queue'.nextId = queue.nextId := by
  have hfind := find?_of_dispatch h
  simp only [dispatch, hfind] at h
  by_cases hper : q.periodic = true
  · obtain rfl : queue = queue' := by simpa [hper] using h
    rfl
  · rw [if_neg hper, Option.some.injEq, Prod.mk.injEq] at h
    obtain ⟨_, rfl⟩ := h
    rfl

@[simp] theorem pending_push (queue : EventQueue κ) (callback : κ) (delay : Nat)
    (periodic : Bool) : (queue.push callback delay periodic).pending =
      ⟨queue.nextId, callback, delay, periodic⟩ :: queue.pending := rfl

/-- An id belongs to one pending event. -/
theorem eq_of_mem_pending {queue : EventQueue κ} {p q : Queued κ} (hp : p ∈ queue.pending)
    (hq : q ∈ queue.pending) (hid : p.id = q.id) : p = q :=
  List.inj_on_of_nodup_map queue.nodup hp hq hid

/-- The event found under the id of a pending one is that one. -/
theorem find?_of_mem {queue : EventQueue κ} {q : Queued κ} (hq : q ∈ queue.pending) :
    queue.pending.find? (·.id == q.id) = some q := by
  cases hfind : queue.pending.find? (·.id == q.id) with
  | none =>
      have hne := List.find?_eq_none.mp hfind q hq
      simp at hne
  | some p =>
      have hid : p.id = q.id := by simpa using List.find?_some hfind
      rw [eq_of_mem_pending (List.mem_of_find?_eq_some hfind) hq hid]

/-- An id can be dispatched exactly when an event is pending under it. -/
theorem isSome_dispatch_iff (queue : EventQueue κ) (id : Nat) :
    (queue.dispatch id).isSome ↔ ∃ q ∈ queue.pending, q.id = id := by
  constructor
  · intro h
    obtain ⟨⟨q, queue'⟩, hq⟩ := Option.isSome_iff_exists.mp h
    exact ⟨q, mem_of_dispatch hq⟩
  · rintro ⟨q, hq, rfl⟩
    rw [dispatch, find?_of_mem hq]
    dsimp only
    split <;> rfl

/-- A periodic event can be dispatched at any time, and stays. -/
theorem dispatch_of_periodic {queue : EventQueue κ} {q : Queued κ} (hq : q ∈ queue.pending)
    (hperiodic : q.periodic = true) : queue.dispatch q.id = some (q, queue) := by
  rw [dispatch, find?_of_mem hq]
  exact if_pos hperiodic

/-- Dispatching a one-shot event cuts it out of the pending ones. -/
theorem exists_split_of_dispatch {queue queue' : EventQueue κ} {id : Nat} {q : Queued κ}
    (h : queue.dispatch id = some (q, queue')) (honce : q.periodic = false) :
    ∃ front back, queue.pending = front ++ q :: back ∧ queue'.pending = front ++ back := by
  have hfind := find?_of_dispatch h
  simp only [dispatch, hfind, honce, Bool.false_eq_true, if_false, Option.some.injEq,
    Prod.mk.injEq, true_and] at h
  obtain ⟨hid, front, back, hpending, hfront⟩ := List.find?_eq_some_iff_append.mp hfind
  refine ⟨front, back, hpending, ?_⟩
  calc queue'.pending
      = queue.pending.eraseP (·.id == id) := h ▸ rfl
    _ = front ++ (q :: back).eraseP (·.id == id) := by
        rw [hpending, List.eraseP_append_right _ (by simpa using hfront)]
    _ = front ++ back := by
        rw [List.eraseP_cons, hid]
        rfl

/-- A dispatch takes no event away that is pending under another id. -/
theorem mem_pending_dispatch_of_ne {queue queue' : EventQueue κ} {id : Nat} {p q : Queued κ}
    (h : queue.dispatch id = some (p, queue')) (hq : q ∈ queue.pending) (hid : q.id ≠ id) :
    q ∈ queue'.pending := by
  cases hper : p.periodic with
  | true =>
      obtain ⟨hp, rfl⟩ := mem_of_dispatch h
      rw [dispatch_of_periodic hp hper, Option.some.injEq, Prod.mk.injEq] at h
      exact h.2 ▸ hq
  | false =>
      obtain ⟨front, back, hpending, hpending'⟩ := exists_split_of_dispatch h hper
      have hne : q ≠ p := fun heq => hid (heq ▸ (mem_of_dispatch h).2)
      rw [hpending, List.mem_append, List.mem_cons] at hq
      rw [hpending', List.mem_append]
      exact hq.imp_right fun hq => hq.resolve_left hne

/-- No dispatch takes a periodic event away. -/
theorem mem_pending_dispatch_of_periodic {queue queue' : EventQueue κ} {id : Nat}
    {p q : Queued κ} (h : queue.dispatch id = some (p, queue')) (hq : q ∈ queue.pending)
    (hperiodic : q.periodic = true) : q ∈ queue'.pending := by
  by_cases hid : q.id = id
  · rw [← hid, dispatch_of_periodic hq hperiodic, Option.some.injEq, Prod.mk.injEq] at h
    exact h.2 ▸ hq
  · exact mem_pending_dispatch_of_ne h hq hid

/-- A one-shot event is pending until its own id is dispatched. -/
theorem mem_pending_dispatch_iff_of_once {queue queue' : EventQueue κ} {id : Nat}
    {p q : Queued κ} (h : queue.dispatch id = some (p, queue')) (honce : q.periodic = false) :
    q ∈ queue'.pending ↔ q ∈ queue.pending ∧ ¬ q.id = id := by
  constructor
  · intro hq
    have hbefore := mem_pending_of_dispatch h hq
    refine ⟨hbefore, fun hid => ?_⟩
    obtain ⟨hp, hpid⟩ := mem_of_dispatch h
    obtain rfl : q = p := eq_of_mem_pending hbefore hp (hid.trans hpid.symm)
    obtain ⟨front, back, hpending, hpending'⟩ := exists_split_of_dispatch h honce
    have hnodup : (front ++ q :: back).Nodup := hpending ▸ queue.nodup.of_map
    rw [hpending'] at hq
    exact (List.nodup_cons.mp (List.nodup_middle.mp hnodup)).1 hq
  · exact fun hq => mem_pending_dispatch_of_ne h hq.1 hq.2

/-- What `call_in` leaves pending. -/
theorem mem_pending_of_callIn {queue : EventQueue κ} {accepted : Bool} {delay : Nat}
    {callback : κ} {q : Queued κ} (hq : q ∈ (queue.callIn accepted delay callback).pending) :
    q ∈ queue.pending ∨ q.callback = callback ∧ q.periodic = false := by
  cases accepted with
  | false => exact Or.inl hq
  | true =>
      cases List.mem_cons.mp hq with
      | inl hnew => exact Or.inr (hnew ▸ ⟨rfl, rfl⟩)
      | inr hold => exact Or.inl hold

/-- What `call_every` leaves pending. -/
theorem mem_pending_of_callEvery {queue : EventQueue κ} {accepted : Bool} {period : Nat}
    {callback : κ} {q : Queued κ} (hq : q ∈ (queue.callEvery accepted period callback).pending) :
    q ∈ queue.pending ∨ q.callback = callback ∧ q.periodic = true := by
  cases accepted with
  | false => exact Or.inl hq
  | true =>
      cases List.mem_cons.mp hq with
      | inl hnew => exact Or.inr (hnew ▸ ⟨rfl, rfl⟩)
      | inr hold => exact Or.inl hold

/-- Neither takes an id back. -/
theorem nextId_le_callIn (queue : EventQueue κ) (accepted : Bool) (delay : Nat) (callback : κ) :
    queue.nextId ≤ (queue.callIn accepted delay callback).nextId := by
  cases accepted with
  | false => exact Nat.le_refl _
  | true => exact Nat.le_succ _

theorem nextId_le_callEvery (queue : EventQueue κ) (accepted : Bool) (period : Nat)
    (callback : κ) : queue.nextId ≤ (queue.callEvery accepted period callback).nextId := by
  cases accepted with
  | false => exact Nat.le_refl _
  | true => exact Nat.le_succ _

/-- Neither takes an event away. -/
theorem mem_callIn {queue : EventQueue κ} {q : Queued κ} (hq : q ∈ queue.pending)
    (accepted : Bool) (delay : Nat) (callback : κ) :
    q ∈ (queue.callIn accepted delay callback).pending := by
  cases accepted with
  | false => exact hq
  | true => exact List.mem_cons_of_mem _ hq

theorem mem_callEvery {queue : EventQueue κ} {q : Queued κ} (hq : q ∈ queue.pending)
    (accepted : Bool) (period : Nat) (callback : κ) :
    q ∈ (queue.callEvery accepted period callback).pending := by
  cases accepted with
  | false => exact hq
  | true => exact List.mem_cons_of_mem _ hq

/-! ### counting -/

variable [DecidableEq κ]

theorem count_empty (callback : κ) : (empty κ).count callback = 0 := rfl

@[simp] theorem count_push (queue : EventQueue κ) (callback callback' : κ) (delay : Nat)
    (periodic : Bool) : (queue.push callback delay periodic).count callback' =
      queue.count callback' + if callback = callback' then 1 else 0 := by
  simp [count, List.countP_cons]

theorem count_callIn (queue : EventQueue κ) (accepted : Bool) (delay : Nat)
    (callback callback' : κ) : (queue.callIn accepted delay callback).count callback' =
      queue.count callback' + if accepted = true ∧ callback = callback' then 1 else 0 := by
  cases accepted <;> simp [callIn]

theorem count_callEvery (queue : EventQueue κ) (accepted : Bool) (period : Nat)
    (callback callback' : κ) : (queue.callEvery accepted period callback).count callback' =
      queue.count callback' + if accepted = true ∧ callback = callback' then 1 else 0 := by
  cases accepted <;> simp [callEvery]

/-- Dispatching a one-shot event takes it off the count of its callback. -/
theorem count_of_dispatch {queue queue' : EventQueue κ} {id : Nat} {q : Queued κ}
    (h : queue.dispatch id = some (q, queue')) (callback : κ) :
    queue.count callback = queue'.count callback +
      if q.periodic = false ∧ q.callback = callback then 1 else 0 := by
  have hfind := find?_of_dispatch h
  simp only [dispatch, hfind] at h
  by_cases hper : q.periodic = true
  · obtain rfl : queue = queue' := by simpa [hper] using h
    simp [hper]
  · rw [if_neg hper, Option.some.injEq, Prod.mk.injEq] at h
    obtain ⟨_, rfl⟩ := h
    obtain ⟨hid, front, back, hpending, hfront⟩ := List.find?_eq_some_iff_append.mp hfind
    have herase : queue.pending.eraseP (·.id == id) = front ++ back := by
      rw [hpending, List.eraseP_append_right _ (by simpa using hfront), List.eraseP_cons, hid]
      rfl
    simp only [count, herase]
    rw [hpending]
    simp [List.countP_append, List.countP_cons, hper, Nat.add_assoc]

/-- Dispatching never raises a count. -/
theorem count_le_of_dispatch {queue queue' : EventQueue κ} {id : Nat} {q : Queued κ}
    (h : queue.dispatch id = some (q, queue')) (callback : κ) :
    queue'.count callback ≤ queue.count callback := by
  rw [count_of_dispatch h callback]
  exact Nat.le_add_right _ _

end EventQueue
