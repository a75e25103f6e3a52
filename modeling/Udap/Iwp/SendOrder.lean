import Udap.Iwp.Codel
import Mathlib.Data.List.Induction
import Mathlib.Data.Multiset.Range

/-!
The order and the delays of outbound frames, over whole runs of `Put` and `Process`.

A batch is what was put between two calls of `Process`.

* `Outbound.Tracks.step`: the queue holds the batch, and what was put is emitted or waiting;
* `inOrder_step`: a run emits in order exactly if every single `Process` does;
* `inOrder_iff`: it does so under every implementation of `std::priority_queue` exactly if no batch
  has two frames;
* `byDelay_iff`: the delays are the waiting times exactly if `Process` comes in the millisecond of
  the first frame of the batch.
-/

namespace Udap.Iwp

open QueuedFrame (getTime)

/-- The calls on the queue, with the time on the clock. -/
inductive OutboundEvent
  /-- `encrypt_frame_async_send` puts a new frame -/
  | put (now : UInt64)
  /-- `EncryptOutboundFrames` takes what is queued -/
  | process (now : UInt64)
  deriving DecidableEq

namespace OutboundEvent

/-- The time of a call. -/
def time : OutboundEvent → ℕ
  | put now => now.toNat
  | process now => now.toNat

/-- The frames are taken. -/
def Processes : OutboundEvent → Prop
  | put _ => False
  | process _ => True

/-- The stamps of the frames that were put since the last `Process`. -/
def batch : List UInt64 → OutboundEvent → List UInt64
  | stamps, put now => stamps ++ [now]
  | _, process _ => []

/-- The clock does not go back. -/
def Timed (es : List OutboundEvent) : Prop := es.Pairwise fun e e' => e.time ≤ e'.time

end OutboundEvent

open OutboundEvent (batch Timed)

/-- The outbound queue of a session, and what became of the frames that were put. -/
structure Outbound (C : Type) where
  frames : CoDelQueue C
  /-- the frames put since the last `Process` -/
  waiting : List QueuedFrame := []
  /-- the number of frames put so far -/
  made : ℕ := 0
  /-- what `Process` has emitted -/
  sent : List QueuedFrame := []
  /-- what `Process` has dropped -/
  deleted : List QueuedFrame := []

namespace Outbound

variable {C : Type} (pq : PriorityQueue C getTime)

/-- A queue in which nothing was put yet. -/
def init : Outbound C := { frames := { queue := pq.empty } }

/-- One call. -/
def step (s : Outbound C) : OutboundEvent → Outbound C
  | .put now =>
    let frame : QueuedFrame := { no := s.made }
    { s with
      frames := s.frames.put pq frame now
      waiting := s.waiting ++ [frame.putTime now]
      made := s.made + 1 }
  | .process _ =>
    let (p, frames) := s.frames.process pq
    { s with
      frames := frames
      waiting := []
      sent := s.sent ++ p.result
      deleted := s.deleted ++ p.dropped.toList }

/-- A run of calls on a new queue. -/
def run (es : List OutboundEvent) : Outbound C := es.foldl (step pq) (init pq)

/-- The frames are emitted in the order in which they were put, each at most once. -/
def InOrder (s : Outbound C) : Prop := s.sent.Pairwise fun f g => f.no < g.no

instance (s : Outbound C) : Decidable s.InOrder := inferInstanceAs (Decidable (List.Pairwise _ _))

/-- A `Process` takes the frames in the order in which they were put. -/
def TakesInOrder (s : Outbound C) (e : OutboundEvent) : Prop :=
  e.Processes → (s.frames.order pq).Pairwise fun f g => f.no < g.no

/-- Every frame that was put is emitted, dropped, or still in the queue, and in one place only. -/
def Complete (s : Outbound C) : Prop :=
  ((s.sent : Multiset QueuedFrame) + s.deleted + pq.items s.frames.queue).map QueuedFrame.no =
    Multiset.range s.made

/-! ### What holds in every run -/

/-- What is known of the queue: it holds the frames of the batch, the numbers of which come after
those of the frames that were taken. -/
structure Tracks (s : Outbound C) : Prop where
  started : CoDelQueue.Started pq s.frames
  items : pq.items s.frames.queue = s.waiting
  below : ∀ f ∈ s.sent ++ s.waiting, f.no < s.made
  waiting : s.waiting.Pairwise fun f g => f.no < g.no
  sent : ∀ f ∈ s.sent, ∀ g ∈ s.waiting, f.no < g.no
  complete : Complete pq s

lemma tracks_init : Tracks pq (init pq) where
  started := Or.inl ⟨pq.items_empty, rfl⟩
  items := pq.items_empty
  below := fun f hf => absurd hf List.not_mem_nil
  waiting := List.Pairwise.nil
  sent := fun f hf => absurd hf List.not_mem_nil
  complete := by
    have hempty : pq.items (init pq).frames.queue = 0 := pq.items_empty
    rw [Complete, hempty]
    rfl

variable {pq} {s : Outbound C}

lemma Tracks.put (h : Tracks pq s) (now : UInt64) : Tracks pq (s.step pq (.put now)) where
  started := h.started.put pq _ now
  items := by
    have hpush : pq.items (s.step pq (.put now)).frames.queue =
        (QueuedFrame.mk s.made now) ::ₘ pq.items s.frames.queue := pq.items_push _ _
    rw [hpush, h.items]
    exact Multiset.coe_eq_coe.mpr (List.perm_append_singleton _ _).symm
  below := by
    intro f hf
    rw [step, ← List.append_assoc, List.mem_append, List.mem_singleton] at hf
    rcases hf with hf | rfl
    · exact Nat.lt_succ_of_lt (h.below f hf)
    · exact Nat.lt_succ_self _
  waiting := by
    refine List.pairwise_append.mpr ⟨h.waiting, List.pairwise_singleton _ _, ?_⟩
    intro f hf g hg
    obtain rfl := List.mem_singleton.mp hg
    exact h.below f (List.mem_append_right _ hf)
  sent := by
    intro f hf g hg
    rcases List.mem_append.mp hg with hg | hg
    · exact h.sent f hf g hg
    · obtain rfl := List.mem_singleton.mp hg
      exact h.below f (List.mem_append_left _ hf)
  complete := by
    have hpush : pq.items (s.step pq (.put now)).frames.queue =
        (QueuedFrame.mk s.made now) ::ₘ pq.items s.frames.queue := pq.items_push _ _
    have hold := h.complete
    rw [Complete] at hold
    rw [Complete, hpush]
    simp only [step, Multiset.add_cons, Multiset.map_cons, hold, Multiset.range_succ]

/-- What a call of `Process` adds to what was sent. -/
lemma Tracks.sent_process (h : Tracks pq s) (now : UInt64) :
    (s.step pq (.process now)).sent = s.sent ++ s.frames.order pq :=
  congrArg (s.sent ++ ·) (h.started.result pq)

lemma Tracks.deleted_process (h : Tracks pq s) (now : UInt64) :
    (s.step pq (.process now)).deleted = s.deleted := by
  have hnone : (s.step pq (.process now)).deleted =
      s.deleted ++ (s.frames.process pq).1.dropped.toList := rfl
  rw [hnone, h.started.dropped, Option.toList_none, List.append_nil]

/-- `Process` takes the frames of the batch. -/
lemma Tracks.order_perm (h : Tracks pq s) : (s.frames.order pq).Perm s.waiting :=
  Multiset.coe_eq_coe.mp ((CoDelQueue.coe_order pq s.frames).trans h.items)

lemma Tracks.process (h : Tracks pq s) (now : UInt64) : Tracks pq (s.step pq (.process now)) where
  started := CoDelQueue.started_process pq
  items := CoDelQueue.items_process pq
  below := by
    intro f hf
    have hnil : (s.step pq (.process now)).waiting = [] := rfl
    rw [hnil, List.append_nil, h.sent_process, List.mem_append] at hf
    refine h.below f (List.mem_append.mpr (hf.imp_right fun hf => h.order_perm.mem_iff.mp hf))
  waiting := List.Pairwise.nil
  sent := fun f _ g hg => absurd hg List.not_mem_nil
  complete := by
    have hitems : pq.items (s.step pq (.process now)).frames.queue = 0 :=
      CoDelQueue.items_process pq
    have hold := h.complete
    rw [Complete, ← CoDelQueue.coe_order] at hold
    rw [Complete, h.sent_process, h.deleted_process, hitems, ← Multiset.coe_add, Multiset.add_zero,
      Multiset.add_assoc, Multiset.add_comm (s.frames.order pq : Multiset QueuedFrame),
      ← Multiset.add_assoc]
    exact hold

/-- What is known of the queue is kept by every call. -/
lemma Tracks.step (h : Tracks pq s) (e : OutboundEvent) : Tracks pq (s.step pq e) := by
  cases e with
  | put now => exact h.put now
  | process now => exact h.process now

lemma Tracks.foldl (h : Tracks pq s) (es : List OutboundEvent) :
    Tracks pq (es.foldl (Outbound.step pq) s) := by
  induction es generalizing s with
  | nil => exact h
  | cons e es ih => exact ih (h.step e)

variable (pq) in
lemma tracks_run (es : List OutboundEvent) : Tracks pq (run pq es) := (tracks_init pq).foldl es

/-! ### The order -/

/-- A run emits in order exactly if every single `Process` does. -/
lemma inOrder_step (h : Tracks pq s) (e : OutboundEvent) :
    (s.step pq e).InOrder ↔ s.InOrder ∧ TakesInOrder pq s e := by
  cases e with
  | put now => exact (and_iff_left fun hp => hp.elim).symm
  | process now =>
      have hcross : ∀ f ∈ s.sent, ∀ g ∈ s.frames.order pq, f.no < g.no :=
        fun f hf g hg => h.sent f hf g (h.order_perm.mem_iff.mp hg)
      rw [InOrder, h.sent_process, List.pairwise_append, and_iff_left hcross]
      exact and_congr_right fun _ => ⟨fun ho _ => ho, fun ho => ho trivial⟩

lemma inOrder_run (es : List OutboundEvent) :
    (run pq es).InOrder ↔ Along (Outbound.step pq) (TakesInOrder pq) (init pq) es :=
  (holds_foldl_iff (fun _ e h => h.step e) (fun _ e h => inOrder_step h e) (tracks_init pq)).trans
    (and_iff_right List.Pairwise.nil)

/-- The frames come out in order exactly if `Process` takes the batch as it was put. -/
lemma Tracks.takesInOrder_iff (h : Tracks pq s) (now : UInt64) :
    TakesInOrder pq s (.process now) ↔ s.frames.order pq = s.waiting := by
  constructor
  · intro ho
    refine List.Perm.eq_of_pairwise (fun f g _ _ hfg hgf => ?_) (ho trivial) h.waiting h.order_perm
    exact absurd (lt_trans hfg hgf) (lt_irrefl _)
  · intro ho _
    rw [ho]
    exact h.waiting

/-! ### The times -/

/-- The frames of the batch were put before. -/
def Later (s : Outbound C) (e : OutboundEvent) : Prop := ∀ f ∈ s.waiting, f.getTime ≤ e.time

variable (pq) in
lemma along_later {es : List OutboundEvent} (htimed : Timed es)
    (h : ∀ e ∈ es, s.Later e) : Along (Outbound.step pq) Later s es := by
  induction es generalizing s with
  | nil => exact trivial
  | cons e es ih =>
      obtain ⟨hfirst, hrest⟩ := List.pairwise_cons.mp htimed
      refine ⟨h e List.mem_cons_self, ih hrest fun e' he' f hf => ?_⟩
      cases e with
      | put now =>
          rcases List.mem_append.mp hf with hf | hf
          · exact h e' (List.mem_cons_of_mem _ he') f hf
          · obtain rfl := List.mem_singleton.mp hf
            exact hfirst e' he'
      | process now => exact absurd hf List.not_mem_nil

variable (pq) in
lemma along_later_run {es : List OutboundEvent} (htimed : Timed es) :
    Along (Outbound.step pq) Later (init pq) es :=
  along_later pq htimed fun _ _ _ hf => absurd hf List.not_mem_nil

/-- The batch is in the order of its stamps. -/
def Ascending (s : Outbound C) : Prop := s.waiting.Pairwise fun f g => f.getTime ≤ g.getTime

lemma Ascending.step (h : s.Ascending) {e : OutboundEvent} (hlater : s.Later e) :
    (s.step pq e).Ascending := by
  cases e with
  | put now =>
      refine List.pairwise_append.mpr ⟨h, List.pairwise_singleton _ _, ?_⟩
      intro f hf g hg
      obtain rfl := List.mem_singleton.mp hg
      exact hlater f hf
  | process now => exact List.Pairwise.nil

/-- A batch that comes out in order has one stamp only: it is emitted with the latest first. -/
lemma Tracks.created_eq (h : Tracks pq s) (hasc : s.Ascending) {now : UInt64}
    (ho : TakesInOrder pq s (.process now)) : ∀ f ∈ s.waiting, ∀ g ∈ s.waiting,
    f.created = g.created := by
  have hdesc := CoDelQueue.pairwise_order pq s.frames
  rw [(h.takesInOrder_iff now).mp ho] at hdesc
  have hboth : s.waiting.Pairwise fun f g => f.created = g.created :=
    (hdesc.and hasc).imp fun hfg => UInt64.toNat_inj.mp (le_antisymm hfg.2 hfg.1)
  have hback : s.waiting.Pairwise (flip fun f g => f.created = g.created) :=
    hboth.imp fun hfg => hfg.symm
  exact List.Pairwise.forall_of_forall_of_flip (fun _ _ => rfl) hboth hback

/-! ### Sorted lists -/

/-- A sorted list holds the batch with the last frame first. -/
def Reversed (s : Outbound { l : List QueuedFrame // l.Pairwise (PriorityQueue.Over getTime) }) :
    Prop :=
  s.frames.queue.1 = s.waiting.reverse

section SortedList

variable {s : Outbound { l : List QueuedFrame // l.Pairwise (PriorityQueue.Over getTime) }}

lemma Reversed.step (h : s.Reversed) {e : OutboundEvent} (hlater : s.Later e) :
    (s.step (PriorityQueue.sortedList getTime) e).Reversed := by
  cases e with
  | put now =>
      have htop : ∀ g ∈ s.frames.queue.1, g.getTime ≤ (QueuedFrame.mk s.made now).getTime := by
        intro g hg
        rw [h, List.mem_reverse] at hg
        exact hlater g hg
      refine (PriorityQueue.push_sortedList htop).trans ?_
      rw [h]
      exact (List.reverse_concat' ..).symm
  | process now =>
      exact (Multiset.coe_eq_zero _).mp
        (CoDelQueue.items_process (PriorityQueue.sortedList getTime))

lemma Reversed.order (h : s.Reversed) :
    s.frames.order (PriorityQueue.sortedList getTime) = s.waiting.reverse :=
  (PriorityQueue.drain_sortedList s.frames.queue).trans h

/-- A list that is its own reverse although it is in strict order has at most one member. -/
lemma length_le_one_of_reverse {α : Type} {r : α → α → Prop} (hasym : ∀ a b, r a b → ¬ r b a)
    {l : List α} (h : l.Pairwise r) (hrev : l.reverse = l) : l.length ≤ 1 := by
  match l with
  | [] => exact Nat.zero_le 1
  | [a] => exact le_rfl
  | a :: b :: l =>
      have hback := List.pairwise_reverse.mp (hrev.symm ▸ h)
      have hab := List.rel_of_pairwise_cons h (List.mem_cons_self (l := l))
      exact absurd (List.rel_of_pairwise_cons hback List.mem_cons_self) (hasym _ _ hab)

lemma Reversed.length_le_one (h : s.Reversed) (ht : Tracks (PriorityQueue.sortedList getTime) s)
    {now : UInt64} (ho : TakesInOrder (PriorityQueue.sortedList getTime) s (.process now)) :
    s.waiting.length ≤ 1 := by
  refine length_le_one_of_reverse (fun f g => Nat.lt_asymm) ht.waiting ?_
  rw [← h.order]
  exact (ht.takesInOrder_iff now).mp ho

end SortedList

/-! ### Runs and their batches -/

section Batches

variable {C : Type} {pq : PriorityQueue C getTime} {es : List OutboundEvent}

/-- The stamps of the batch are those of the frames that wait. -/
lemma along_batch {P : Outbound C → OutboundEvent → Prop} {Q : List UInt64 → OutboundEvent → Prop}
    (hPQ : ∀ s e, P s e ↔ Q (s.waiting.map QueuedFrame.created) e) :
    Along (step pq) P (init pq) es ↔ Along batch Q [] es := by
  refine along_simulates (R := fun s stamps => s.waiting.map QueuedFrame.created = stamps)
    (fun s stamps e h => ?_) (fun s stamps e h => h ▸ hPQ s e) rfl
  cases e with
  | put now => exact List.map_append.trans (congrArg (· ++ [now]) h)
  | process now => rfl

/-- No batch has two frames. -/
def Singly (stamps : List UInt64) (e : OutboundEvent) : Prop := e.Processes → stamps.length ≤ 1

/-- No batch has two stamps. -/
def Alike (stamps : List UInt64) (e : OutboundEvent) : Prop :=
  e.Processes → ∀ a ∈ stamps, ∀ b ∈ stamps, a = b

/-- Batches of single frames come out in order. -/
lemma inOrder_of_singly (h : Along batch Singly [] es) : (run pq es).InOrder := by
  rw [inOrder_run]
  have hwait : Along (step pq) (fun s e => e.Processes → s.waiting.length ≤ 1) (init pq) es :=
    (along_batch fun s e => by rw [Singly, List.length_map]).mpr h
  refine hwait.imp (J := Tracks pq) (F := fun _ _ => True) (fun s e ht _ hone => ?_)
    (tracks_init pq) (along_true ..)
  refine ⟨fun hp => ?_, ht.step e⟩
  have hlen : (s.frames.order pq).length ≤ 1 := ht.order_perm.length_eq.trans_le (hone hp)
  match s.frames.order pq, hlen with
  | [], _ => exact List.Pairwise.nil
  | [f], _ => exact List.pairwise_singleton _ _

/-- What is known of every batch that is taken in order, by an invariant that the times keep. -/
lemma along_batch_of_inOrder {J : Outbound C → Prop} {Q : List UInt64 → OutboundEvent → Prop}
    (hinit : J (init pq)) (hstep : ∀ s e, J s → s.Later e → J (s.step pq e))
    (hbatch : ∀ s e, Tracks pq s → J s → TakesInOrder pq s e →
      Q (s.waiting.map QueuedFrame.created) e)
    (htimed : Timed es) (h : (run pq es).InOrder) : Along batch Q [] es := by
  have hwait : Along (step pq) (fun s e => Q (s.waiting.map QueuedFrame.created) e) (init pq) es :=
    ((inOrder_run es).mp h).imp (J := fun s => Tracks pq s ∧ J s) (F := Later)
      (fun s e hJ hlater ho => ⟨hbatch s e hJ.1 hJ.2 ho, hJ.1.step e, hstep s e hJ.2 hlater⟩)
      ⟨tracks_init pq, hinit⟩ (along_later_run pq htimed)
  exact (along_batch fun _ _ => Iff.rfl).mp hwait

/-- Under any implementation, only batches of one stamp can come out in order. -/
lemma alike_of_inOrder (htimed : Timed es) (h : (run pq es).InOrder) :
    Along batch Alike [] es := by
  refine along_batch_of_inOrder (J := Ascending) List.Pairwise.nil
    (fun s e hasc hlater => hasc.step hlater) (fun s e ht hasc ho hp a ha b hb => ?_) htimed h
  cases e with
  | put now => exact hp.elim
  | process now =>
      obtain ⟨f, hf, rfl⟩ := List.mem_map.mp ha
      obtain ⟨g, hg, rfl⟩ := List.mem_map.mp hb
      exact ht.created_eq hasc ho f hf g hg

/-- A sorted list lets only batches of single frames out in order. -/
lemma singly_of_inOrder (htimed : Timed es)
    (h : (run (PriorityQueue.sortedList getTime) es).InOrder) : Along batch Singly [] es := by
  have hinit : (init (PriorityQueue.sortedList getTime)).Reversed := rfl
  refine along_batch_of_inOrder hinit (fun s e hrev hlater => hrev.step hlater)
    (fun s e ht hrev ho hp => ?_) htimed h
  cases e with
  | put now => exact hp.elim
  | process now =>
      rw [List.length_map]
      exact hrev.length_le_one ht ho

/-- The outbound queue is first in, first out under every implementation of `std::priority_queue`
exactly if no batch has two frames; under none is it unless all frames of a batch carry one
stamp. -/
theorem inOrder_iff (htimed : Timed es) :
    ((∀ (C : Type) (pq : PriorityQueue C getTime),
        (run pq es).InOrder ∧ Complete pq (run pq es)) ↔ Along batch Singly [] es) ∧
      ∀ (C : Type) (pq : PriorityQueue C getTime), (run pq es).InOrder →
        Along batch Alike [] es := by
  refine ⟨⟨fun h => ?_, fun h C pq => ?_⟩, fun C pq => alike_of_inOrder htimed⟩
  · exact singly_of_inOrder htimed (h _ (PriorityQueue.sortedList getTime)).1
  · exact ⟨inOrder_of_singly h, (tracks_run pq es).complete⟩

theorem inOrder_iff_two_batches : let es := [.put 1000, .process 1001, .put 1001, .process 1001]
    ((∀ (C : Type) (pq : PriorityQueue C getTime),
        (run pq es).InOrder ∧ Complete pq (run pq es)) ↔ Along batch Singly [] es) ∧
      ∀ (C : Type) (pq : PriorityQueue C getTime), (run pq es).InOrder →
        Along batch Alike [] es :=
  inOrder_iff (by rw [Timed]; decide)

/-- Two frames that were put five milliseconds apart are emitted the other way round. -/
theorem not_inOrder_five_apart :
    ¬ (run (PriorityQueue.sortedList getTime) [.put 1000, .put 1005, .process 1010]).InOrder := by
  decide

/-! ### The delays -/

/-- The delay that is computed for each queued frame is the time it has waited. -/
def Measures (pq : PriorityQueue C getTime) (s : Outbound C) (now : UInt64) : Prop :=
  ∀ f ∈ pq.items s.frames.queue,
    ∃ delay, (f, delay) ∈ (s.frames.process pq).1.delays ∧ delay.toNat + f.getTime = now.toNat

/-- A frame is dropped if and only if every queued frame has waited longer than `dropMs`. -/
def DropsLate (pq : PriorityQueue C getTime) (s : Outbound C) (now : UInt64) : Prop :=
  (s.frames.process pq).1.dropped ≠ none ↔
    pq.items s.frames.queue ≠ 0 ∧
      ∀ f ∈ pq.items s.frames.queue, f.getTime + dropMs.toNat < now.toNat

/-- The first stamp of a batch that is not zero. -/
def firstStamp (stamps : List UInt64) : UInt64 := (stamps.find? (· ≠ 0)).getD 0

lemma firstStamp_append (stamps : List UInt64) (now : UInt64) :
    firstStamp (stamps ++ [now]) = if firstStamp stamps = 0 then now else firstStamp stamps := by
  rw [firstStamp, firstStamp, List.find?_append]
  cases hfind : stamps.find? (· ≠ 0) with
  | none =>
      by_cases hzero : now = 0
      · rw [hzero]
        rfl
      · have hnow : List.find? (· ≠ 0) [now] = some now := List.find?_cons_of_pos (by simpa)
        rw [hnow]
        rfl
  | some t =>
      have ht : t ≠ 0 := by simpa using List.find?_some hfind
      exact (if_neg ht).symm

variable (pq es) in
/-- `firstPut` is the first stamp of the batch that is not zero. -/
lemma firstPut_run : (run pq es).frames.firstPut = firstStamp (es.foldl batch []) ∧
    (run pq es).waiting.map QueuedFrame.created = es.foldl batch [] := by
  induction es using List.reverseRecOn with
  | nil => exact ⟨rfl, rfl⟩
  | append_singleton es e ih =>
      obtain ⟨hfirst, hbatch⟩ := ih
      rw [run, List.foldl_append, List.foldl_append]
      cases e with
      | put now =>
          refine ⟨?_, List.map_append.trans (congrArg (· ++ [now]) hbatch)⟩
          refine Eq.trans ?_ (firstStamp_append _ now).symm
          rw [← hfirst]
          rfl
      | process now => exact ⟨rfl, rfl⟩

section Delays

variable {s : Outbound C} {now : UInt64}

lemma Tracks.mem_items (h : Tracks pq s) {f : QueuedFrame} :
    f ∈ pq.items s.frames.queue ↔ f ∈ s.waiting := by
  rw [h.items, Multiset.mem_coe]

lemma Tracks.mem_delays (h : Tracks pq s) {f : QueuedFrame} {delay : UInt64} :
    (f, delay) ∈ (s.frames.process pq).1.delays ↔
      f ∈ s.waiting ∧ s.frames.firstPut - f.created = delay := by
  rw [CoDelQueue.delays_process, List.mem_map, ← h.mem_items]
  constructor
  · rintro ⟨g, hg, heq⟩
    obtain ⟨rfl, rfl⟩ := Prod.mk.inj heq
    exact ⟨(CoDelQueue.mem_order pq).mp hg, rfl⟩
  · rintro ⟨hf, rfl⟩
    exact ⟨f, (CoDelQueue.mem_order pq).mpr hf, rfl⟩

/-- A difference and what was taken away add up to a time only if they started from it. -/
lemma eq_of_sub_toNat {start created now : UInt64}
    (h : (start - created).toNat + created.toNat = now.toNat) : start = now := by
  have hsum : start - created + created = now := by
    rw [← UInt64.toNat_inj, UInt64.toNat_add, h]
    exact Nat.mod_eq_of_lt now.toNat_lt
  rwa [UInt64.sub_add_cancel] at hsum

/-- The delays are the waiting times exactly if they are counted from now. -/
lemma Tracks.measures_iff (h : Tracks pq s) (hlater : s.Later (.process now)) :
    Measures pq s now ↔ s.waiting = [] ∨ s.frames.firstPut = now := by
  constructor
  · intro hmeasures
    refine or_iff_not_imp_left.mpr fun hne => ?_
    obtain ⟨f, hf⟩ := List.exists_mem_of_ne_nil _ hne
    obtain ⟨delay, hd, hsum⟩ := hmeasures f (h.mem_items.mpr hf)
    obtain ⟨-, rfl⟩ := h.mem_delays.mp hd
    exact eq_of_sub_toNat hsum
  · rintro (hnil | rfl) f hf
    · rw [h.mem_items, hnil] at hf
      exact absurd hf List.not_mem_nil
    · have hwait := h.mem_items.mp hf
      have hle : f.created.toNat ≤ s.frames.firstPut.toNat := hlater f hwait
      refine ⟨_, h.mem_delays.mpr ⟨hwait, rfl⟩, ?_⟩
      rw [UInt64.toNat_sub_of_le _ _ (UInt64.le_iff_toNat_le.mpr hle)]
      exact Nat.sub_add_cancel hle

/-- Where the delays are counted from now, some frame has not waited at all. -/
lemma Tracks.dropsLate (h : Tracks pq s) (hwhen : s.waiting = [] ∨ s.frames.firstPut = now) :
    DropsLate pq s now := by
  refine iff_of_false (fun hd => hd (h.started.dropped pq)) ?_
  rintro ⟨hne, hlate⟩
  obtain ⟨hzero, -⟩ | ⟨f, hf, hstart⟩ := h.started
  · exact hne hzero
  · rcases hwhen with hnil | rfl
    · exact absurd (hnil ▸ h.mem_items.mp hf) List.not_mem_nil
    · have hlt := hlate f hf
      rw [← hstart, getTime] at hlt
      omega

end Delays

/-- After every run, `Process` measures the waiting times and drops by them exactly if the queue is
empty or the first frame of the batch was put in the same millisecond. -/
theorem byDelay_iff {now : UInt64} (htimed : Timed (es ++ [.process now])) :
    Measures pq (run pq es) now ∧ DropsLate pq (run pq es) now ↔
      es.foldl batch [] = [] ∨ firstStamp (es.foldl batch []) = now := by
  have ht := tracks_run pq es
  have hlater : (run pq es).Later (.process now) :=
    (along_append.mp (along_later_run pq htimed)).2.1
  obtain ⟨hfirst, hbatch⟩ := firstPut_run pq es
  rw [← hfirst, ← hbatch, List.map_eq_nil_iff, ht.measures_iff hlater]
  exact and_iff_left_of_imp ht.dropsLate

theorem byDelay_iff_same_millisecond :
    let pq := PriorityQueue.sortedList getTime
    let es := [.put 1000, .put 1000]
    Measures pq (run pq es) 1000 ∧ DropsLate pq (run pq es) 1000 ↔
      es.foldl batch [] = [] ∨ firstStamp (es.foldl batch []) = 1000 :=
  byDelay_iff (by rw [Timed]; decide)

/-- Frames that have waited for thirty and for twenty-five milliseconds: none is dropped. -/
theorem not_byDelay_thirty :
    let pq := PriorityQueue.sortedList getTime
    let s := run pq [.put 1000, .put 1005]
    ¬ (Measures pq s 1030 ∧ DropsLate pq s 1030) := by
  rintro pq s ⟨-, hd⟩
  have hne : pq.items s.frames.queue ≠ 0 := by decide
  have hlate : ∀ f ∈ pq.items s.frames.queue, f.getTime + dropMs.toNat < 1030 := by decide
  have hnone : (s.frames.process pq).1.dropped = none := by decide
  exact hd.mpr ⟨hne, hlate⟩ hnone

end Batches

end Outbound

end Udap.Iwp
