import Udap.Lib.PriorityQueue
import Udap.Lib.Run
import Mathlib.Tactic.SplitIfs

/-!
The queue of outbound frames, `CoDelQueue`, over any implementation of `std::priority_queue`. The
interval that is only printed is left out.

* `delays_process`: the delay of a frame is counted from `firstPut`;
* `Started.dropped`: nothing is dropped while `firstPut` is the stamp of a frame in the queue;
* `Started.result`: the whole queue is emitted, the latest stamps first.
-/

namespace Udap.Iwp

/-! ### The queue -/

/-- An `iwp_async_frame` in a queue, known by the call of `Put` it came with. -/
structure QueuedFrame where
  no : ℕ
  created : UInt64 := 0
  deriving DecidableEq

namespace QueuedFrame

/-- `FrameGetTime`, which `CoDelCompare` compares by. -/
def getTime (f : QueuedFrame) : ℕ := f.created.toNat

/-- `FramePutTime`. -/
def putTime (f : QueuedFrame) (now : UInt64) : QueuedFrame := { f with created := now }

end QueuedFrame

open QueuedFrame (getTime)

/-- `dropMs`. -/
def dropMs : UInt64 := 20

/-- `CoDelQueue`. -/
structure CoDelQueue (C : Type) where
  firstPut : UInt64 := 0
  dropNum : UInt64 := 0
  queue : C

/-- What a call of `Process` does with the frames. -/
structure Processed where
  result : List QueuedFrame := []
  /-- the frame that is deleted -/
  dropped : Option QueuedFrame := none
  /-- the delay that is computed for each frame -/
  delays : List (QueuedFrame × UInt64) := []

/-- `std::min` of two times. -/
lemma toNat_min (a b : UInt64) : (min a b).toNat = min a.toNat b.toNat := by
  have hmin : min a b = if a ≤ b then a else b := rfl
  rw [hmin, Nat.min_def]
  by_cases h : a ≤ b
  · rw [if_pos h, if_pos (UInt64.le_iff_toNat_le.mp h)]
  · rw [if_neg h, if_neg fun h' => h (UInt64.le_iff_toNat_le.mpr h')]

lemma min_le_lowest (a b : UInt64) : min a b ≤ b := by
  rw [UInt64.le_iff_toNat_le, toNat_min]
  exact Nat.min_le_right ..

lemma zero_min_le (b : UInt64) : min 0 b ≤ dropMs := by
  rw [UInt64.le_iff_toNat_le, toNat_min, UInt64.toNat_zero, Nat.zero_min]
  exact Nat.zero_le _

namespace CoDelQueue

variable {C : Type} (pq : PriorityQueue C getTime)

/-- `CoDelQueue::Put`. -/
def put (i : QueuedFrame) (now : UInt64) (q : CoDelQueue C) : CoDelQueue C :=
  let i := i.putTime now
  { q with
    queue := pq.push i q.queue
    firstPut := if q.firstPut = 0 then i.created else q.firstPut }

/-- The loop of `Process`, with `m_Queue.size()`. -/
def processLoop (start : UInt64) : ℕ → UInt64 → CoDelQueue C → Processed × CoDelQueue C
  | 0, _, q => ({}, q)
  | n + 1, lowest, q =>
    match pq.pop q.queue with
    | none => ({}, q)
    | some (item, rest) =>
      let dlt := start - item.created
      let lowest := min dlt lowest
      if n = 0 ∧ dropMs < lowest then
        ({ dropped := some item, delays := [(item, dlt)] },
          { q with queue := rest, dropNum := q.dropNum + 1 })
      else
        let dropNum := if n = 0 then 0 else q.dropNum
        let (p, q) := processLoop start n lowest { q with queue := rest, dropNum := dropNum }
        ({ p with result := item :: p.result, delays := (item, dlt) :: p.delays }, q)

/-- `CoDelQueue::Process`. -/
def process (q : CoDelQueue C) : Processed × CoDelQueue C :=
  let (p, q) := processLoop pq q.firstPut (pq.size q.queue) 0xFFFFFFFFFFFFFFFF q
  (p, { q with firstPut := 0 })

/-! ### What a call of `Process` does -/

/-- The frames in the order in which `Process` takes them. -/
def order (q : CoDelQueue C) : List QueuedFrame := pq.drain (pq.size q.queue) q.queue

lemma coe_order (q : CoDelQueue C) : (order pq q : Multiset QueuedFrame) = pq.items q.queue :=
  pq.coe_drain rfl

lemma mem_order {q : CoDelQueue C} {f : QueuedFrame} : f ∈ order pq q ↔ f ∈ pq.items q.queue :=
  pq.mem_drain rfl

lemma pairwise_order (q : CoDelQueue C) :
    (order pq q).Pairwise fun f g => g.getTime ≤ f.getTime :=
  pq.pairwise_drain rfl

section Loop

variable (start : UInt64) {n : ℕ} {lowest : UInt64} {q : CoDelQueue C}

/-- Every frame is emitted or dropped, its delay is counted from `start`, and the queue is empty. -/
lemma processLoop_spec (hsize : pq.size q.queue = n) :
    (processLoop pq start n lowest q).1.result ++
        (processLoop pq start n lowest q).1.dropped.toList = pq.drain n q.queue ∧
      (processLoop pq start n lowest q).1.delays =
        (pq.drain n q.queue).map (fun f => (f, start - f.created)) ∧
      pq.items (processLoop pq start n lowest q).2.queue = 0 := by
  induction n generalizing lowest q with
  | zero => exact ⟨rfl, rfl, pq.size_eq_zero.mp hsize⟩
  | succ n ih =>
      obtain ⟨a, rest, hpop, hrest⟩ := pq.exists_pop hsize
      rw [pq.drain_succ hpop, List.map_cons]
      simp only [processLoop, hpop]
      split_ifs with hdrop
      · obtain ⟨rfl, -⟩ := hdrop
        exact ⟨rfl, rfl, pq.size_eq_zero.mp hrest⟩
      all_goals
        exact ⟨congrArg (a :: ·) (ih hrest).1,
          congrArg ((a, start - a.created) :: ·) (ih hrest).2.1, (ih hrest).2.2⟩

/-- A frame stamped with `start`, or a small delay before, saves the last frame. -/
lemma dropped_processLoop (hsize : pq.size q.queue = n)
    (h : lowest ≤ dropMs ∨ ∃ f ∈ pq.items q.queue, f.created = start) :
    (processLoop pq start n lowest q).1.dropped = none := by
  induction n generalizing lowest q with
  | zero => rfl
  | succ n ih =>
      obtain ⟨a, rest, hpop, hrest⟩ := pq.exists_pop hsize
      have hnext : min (start - a.created) lowest ≤ dropMs ∨
          ∃ f ∈ pq.items rest, f.created = start := by
        rcases h with h | ⟨f, hf, hstart⟩
        · exact Or.inl (UInt64.le_trans (min_le_lowest _ _) h)
        · rw [pq.items_pop _ a rest hpop] at hf
          rcases Multiset.mem_cons.mp hf with rfl | hf
          · rw [hstart, UInt64.sub_self]
            exact Or.inl (zero_min_le lowest)
          · exact Or.inr ⟨f, hf, hstart⟩
      have hkeep : ¬ (n = 0 ∧ dropMs < min (start - a.created) lowest) := by
        rintro ⟨rfl, hlt⟩
        rcases hnext with hle | ⟨f, hf, -⟩
        · exact absurd hlt (UInt64.not_lt.mpr hle)
        · rw [pq.size_eq_zero.mp hrest] at hf
          exact Multiset.notMem_zero f hf
      simp only [processLoop, hpop, if_neg hkeep]
      exact ih hrest hnext

end Loop

variable {q : CoDelQueue C}

lemma delays_process :
    (process pq q).1.delays = (order pq q).map fun f => (f, q.firstPut - f.created) :=
  (processLoop_spec pq q.firstPut rfl).2.1

lemma items_process : pq.items (process pq q).2.queue = 0 :=
  (processLoop_spec pq q.firstPut rfl).2.2

/-- `firstPut` is the stamp of a frame in the queue, or zero. -/
def Started (q : CoDelQueue C) : Prop :=
  (pq.items q.queue = 0 ∧ q.firstPut = 0) ∨ ∃ f ∈ pq.items q.queue, f.created = q.firstPut

lemma Started.put (h : Started pq q) (i : QueuedFrame) (now : UInt64) :
    Started pq (put pq i now q) := by
  right
  by_cases hfirst : q.firstPut = 0
  · refine ⟨i.putTime now, ?_, (if_pos hfirst).symm⟩
    exact (pq.items_push _ _).symm ▸ Multiset.mem_cons_self _ _
  · obtain ⟨-, hzero⟩ | ⟨f, hf, hstart⟩ := h
    · exact absurd hzero hfirst
    · refine ⟨f, ?_, hstart.trans (if_neg hfirst).symm⟩
      exact (pq.items_push _ _).symm ▸ Multiset.mem_cons_of_mem hf

lemma started_process : Started pq (process pq q).2 := Or.inl ⟨items_process pq, rfl⟩

/-- Nothing is dropped, whatever the delays. -/
lemma Started.dropped (h : Started pq q) : (process pq q).1.dropped = none := by
  obtain ⟨hzero, -⟩ | hf := h
  · have hsize : pq.size q.queue = 0 := pq.size_eq_zero.mpr hzero
    rw [process, hsize]
    rfl
  · exact dropped_processLoop pq q.firstPut rfl (Or.inr hf)

/-- The whole queue is emitted. -/
lemma Started.result (h : Started pq q) : (process pq q).1.result = order pq q := by
  have hall : (process pq q).1.result ++ (process pq q).1.dropped.toList = order pq q :=
    (processLoop_spec pq q.firstPut rfl).1
  rwa [h.dropped, Option.toList_none, List.append_nil] at hall

end CoDelQueue

end Udap.Iwp
