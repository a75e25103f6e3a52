import Udap.Timer.Safety

/-!
Which timers are reclaimed by the next `udap_timer_tick_all`.

A tick deletes the records that are done, and only an execution sets `done`. A timer that is removed
before its job was dispatched is never dispatched any more: it stays in the table.

* `deleted_tickAll`: what a tick deletes was done before it.
* `tickAll_deletes`: every record of the table that is done is deleted.
* `reclaimed_iff`: so a timer that was called or removed is reclaimed exactly if it was dispatched,
  and is still in the table.
-/

namespace Udap

namespace TimerContext

variable {c : TimerContext} {p : ℕ}

/-! ### What a tick leaves -/

lemma done_visit (c : TimerContext) (id : UInt32) (p : ℕ) :
    ((c.visit id).records p).done = (c.records p).done := by
  obtain heq | ⟨q, -, -, -, heq⟩ | ⟨q, -, -, heq⟩ := c.visit_cases id
  · rw [heq]
  · rw [heq]
    by_cases hq : p = q
    · subst hq
      simp [dispatch, write]
    · simp [dispatch, write, Function.update_of_ne hq]
  · rw [heq]
    rfl

lemma lookup_visit {id id' : UInt32} (h : (c.visit id).timers.lookup id' = some p) :
    c.timers.lookup id' = some p := by
  obtain heq | ⟨q, -, -, -, heq⟩ | ⟨q, -, -, heq⟩ := c.visit_cases id
  · rwa [heq] at h
  · rwa [heq] at h
  · rw [heq] at h
    have hlookup : (c.timers.erase id).lookup id' = some p := h
    by_cases hid : id' = id
    · rw [hid, AList.lookup_erase] at hlookup
      exact nomatch hlookup
    · rwa [AList.lookup_erase_ne hid] at hlookup

lemma deleted_visit {id : UInt32} (h : .deleted p ∈ (c.visit id).log) :
    .deleted p ∈ c.log ∨ c.timers.lookup id = some p ∧ (c.records p).done = true := by
  obtain heq | ⟨q, -, -, -, heq⟩ | ⟨q, hid, hdone, heq⟩ := c.visit_cases id
  · exact .inl (heq ▸ h)
  · rw [heq] at h
    exact .inl h
  · rw [heq, reclaim, emit, List.mem_append, List.mem_singleton, TimerEvent.deleted.injEq] at h
    rcases h with h | rfl
    · exact .inl h
    · exact .inr ⟨hid, hdone⟩

lemma deleted_foldl_visit {ids : List UInt32}
    (h : .deleted p ∈ (ids.foldl (fun c id => c.visit id) c).log) :
    .deleted p ∈ c.log ∨ (∃ id, c.timers.lookup id = some p) ∧ (c.records p).done = true := by
  induction ids generalizing c with
  | nil => exact .inl h
  | cons id ids ih =>
    rcases ih h with hp | ⟨⟨id', hid'⟩, hdone⟩
    · exact (deleted_visit hp).imp_right fun ⟨hid, hdone⟩ => ⟨⟨id, hid⟩, hdone⟩
    · rw [done_visit] at hdone
      exact .inr ⟨⟨id', lookup_visit hid'⟩, hdone⟩

/-- What a tick deletes was in the table, and done before. -/
lemma deleted_tickAll (h : .deleted p ∈ c.tickAll.log) :
    .deleted p ∈ c.log ∨ (∃ id, c.timers.lookup id = some p) ∧ (c.records p).done = true := by
  rw [tickAll] at h
  split at h
  · exact deleted_foldl_visit h
  · exact .inl h

/-- A timer that is done, and was hit when its job was dispatched. -/
structure Spent (c : TimerContext) (p : ℕ) : Prop where
  called : (c.records p).calledAt ≠ 0
  done : (c.records p).done = true
  hit : (c.records p).Hit c.clock

lemma Spent.visit (h : c.Spent p) (id : UInt32) : (c.visit id).Spent p := by
  obtain heq | ⟨q, -, -, hcalled, heq⟩ | ⟨q, -, -, heq⟩ := c.visit_cases id
  · rwa [heq]
  · have hne : p ≠ q := fun hq => h.called (hq ▸ hcalled)
    have hrecord : (c.dispatch q).records p = c.records p := Function.update_of_ne hne ..
    rw [heq]
    exact ⟨hrecord.symm ▸ h.called, hrecord.symm ▸ h.done, hrecord.symm ▸ h.hit⟩
  · rw [heq]
    exact ⟨h.called, h.done, h.hit⟩

/-- A visit of the id of a timer that is spent deletes its record. -/
lemma Spent.deleted (h : c.Spent p) {id : UInt32} (hid : c.timers.lookup id = some p) :
    .deleted p ∈ (c.visit id).log := by
  rw [visit_eq hid, if_pos h.hit, if_neg fun hcall => h.called hcall.2, if_pos h.done]
  exact List.mem_append_right _ (List.mem_singleton_self _)

lemma log_visit (c : TimerContext) (id : UInt32) : c.log ⊆ (c.visit id).log := by
  obtain heq | ⟨q, -, -, -, heq⟩ | ⟨q, -, -, heq⟩ := c.visit_cases id
  · rw [heq]
    exact List.Subset.refl _
  · rw [heq]
    exact List.Subset.refl _
  · rw [heq]
    exact List.subset_append_left _ _

/-- The other visits leave the id of a timer alone. -/
lemma lookup_visit_of_ne {id id' : UInt32} (h : id' ≠ id) :
    (c.visit id).timers.lookup id' = c.timers.lookup id' := by
  obtain heq | ⟨q, -, -, -, heq⟩ | ⟨q, -, -, heq⟩ := c.visit_cases id
  · rw [heq]
  · rw [heq]
    rfl
  · rw [heq]
    exact AList.lookup_erase_ne h

lemma log_foldl_visit (c : TimerContext) (ids : List UInt32) :
    c.log ⊆ (ids.foldl (fun c id => c.visit id) c).log := by
  induction ids generalizing c with
  | nil => exact List.Subset.refl _
  | cons id ids ih => exact List.Subset.trans (c.log_visit id) (ih _)

/-- Every visit of an id whose timer is spent, in any order of the table, deletes the record. -/
lemma Spent.deleted_foldl (h : c.Spent p) {id : UInt32} (hid : c.timers.lookup id = some p)
    {ids : List UInt32} (hmem : id ∈ ids) :
    .deleted p ∈ (ids.foldl (fun c id => c.visit id) c).log := by
  induction ids generalizing c with
  | nil => exact nomatch hmem
  | cons id' ids ih =>
    by_cases heq : id = id'
    · subst heq
      exact log_foldl_visit (c.visit id) ids (h.deleted hid)
    · refine ih (h.visit id') ?_ (List.mem_of_ne_of_mem heq hmem)
      rw [lookup_visit_of_ne heq]
      exact hid

lemma run_visit (c : TimerContext) (id : UInt32) : (c.visit id).run = c.run := by
  obtain heq | ⟨q, -, -, -, heq⟩ | ⟨q, -, -, heq⟩ := c.visit_cases id
  · rw [heq]
  · rw [heq]
    rfl
  · rw [heq]
    rfl

lemma run_foldl_visit (c : TimerContext) (ids : List UInt32) :
    (ids.foldl (fun c id => c.visit id) c).run = c.run := by
  induction ids generalizing c with
  | nil => rfl
  | cons id ids ih => rw [List.foldl_cons, ih, run_visit]

/-- Nothing here stops the ticker. -/
lemma Reachable.run_eq (h : c.Reachable) : c.run = true := by
  induction h with
  | init now hpos => rfl
  | @step c c' _ hstep ih =>
    cases hstep with
    | cancel id =>
      unfold TimerContext.cancel
      split <;> exact ih
    | remove id =>
      unfold TimerContext.remove
      split <;> exact ih
    | tickAll =>
      rw [TimerContext.tickAll, if_pos ih, run_foldl_visit]
      exact ih
    | _ => exact ih

/-- Every record of the table that is spent is deleted. -/
lemma tickAll_deletes (hrun : c.run = true) (h : c.Spent p) {id : UInt32}
    (hid : c.timers.lookup id = some p) : .deleted p ∈ c.tickAll.log := by
  rw [tickAll, if_pos hrun]
  refine h.deleted_foldl hid ?_
  exact AList.mem_keys.mp (AList.lookup_isSome.mp (by rw [hid]; rfl))

/-! ### Timers that are over -/

/-- The handler of a timer was called, or the timer was removed, and no job of it is left. -/
structure Over (c : TimerContext) (p : ℕ) : Prop where
  calledOrRemoved : 0 < c.invocations p ∨ ∃ id timeout started,
    [.registered id p timeout started, .removed id].Sublist c.log
  outstanding_eq : c.outstanding p = 0

/-- A timer that is over is reclaimed by the next tick exactly if its job was dispatched, so that an
execution could set `done`, and if its record is still in the table unless it was deleted before. -/
theorem reclaimed_iff (h : c.Reachable) (hover : c.Over p) :
    .deleted p ∈ c.tickAll.log ↔ (c.records p).calledAt ≠ 0 ∧
      (.deleted p ∈ c.log ∨ ∃ id, c.timers.lookup id = some p) := by
  have hs := h.sound
  have hlife := hs.alive.life p
  constructor
  · intro hdeleted
    rcases deleted_tickAll hdeleted with hold | ⟨hid, hdone⟩
    · exact ⟨hlife.called_of_done (hs.registry.deleted p hold), .inl hold⟩
    · exact ⟨hlife.called_of_done hdone, .inr hid⟩
  · rintro ⟨hcalled, hold | ⟨id, hid⟩⟩
    · rw [tickAll, if_pos h.run_eq]
      exact log_foldl_visit _ _ hold
    · have honce := hlife.once
      rw [if_neg hcalled, hover.outstanding_eq, Nat.zero_add] at honce
      have hdone : (c.records p).done = true := by
        cases hdone : (c.records p).done with
        | false => simp [hdone] at honce
        | true => rfl
      refine tickAll_deletes h.run_eq ⟨hcalled, hdone, ?_⟩ hid
      refine (hlife.due hcalled).imp_left fun hdue => ?_
      have hle := UInt64.le_iff_toNat_le.mp hlife.calledAt_le
      rw [UInt64.le_iff_toNat_le, UInt64.toNat_sub_of_le _ _ hlife.started_le]
      omega

/-- A timer is called. -/
lemma reachable_invoke :
    Reachable ((((({ clock := 5 } : TimerContext).callLater 0 (some 7) 0).tickAll.begin 0).take 0
      7).invoke 0 7) := by
  refine .step (.step (.step (.step (.step (.init 5 (by decide)) (.callLater _ 0 (some 7) 0))
    (.tickAll _)) (.begin _ 0 ?_)) (.take _ 0 7 ?_ ?_)) (.invoke _ 0 7 ?_)
  all_goals decide +kernel

/-- A timer that was called and is done is reclaimed. -/
theorem reclaimed_iff_called :
    .deleted 0 ∈ ((((((({ clock := 5 } : TimerContext).callLater 0 (some 7) 0).tickAll.begin
      0).take 0 7).invoke 0 7).finish 0).tickAll).log := by
  have hreach := Reachable.step reachable_invoke (.finish _ 0 (by decide +kernel))
  have hover : Over (((((({ clock := 5 } : TimerContext).callLater 0 (some 7)
      0).tickAll.begin 0).take 0 7).invoke 0 7).finish 0) 0 :=
    ⟨.inl (by decide +kernel), by decide +kernel⟩
  exact (reclaimed_iff hreach hover).mpr ⟨by decide +kernel, .inr ⟨1, by decide +kernel⟩⟩

/-- A timer that is removed before its job was dispatched is not. -/
theorem not_reclaimed :
    ¬ ∀ c : TimerContext, c.Reachable → ∀ p, c.Over p → .deleted p ∈ c.tickAll.log := by
  intro h
  have hreach : Reachable ((({ clock := 5 } : TimerContext).callLater 0 (some 7) 0).remove 1) :=
    .step (.step (.init 5 (by decide)) (.callLater _ 0 (some 7) 0)) (.remove _ 1)
  have hover : Over ((({ clock := 5 } : TimerContext).callLater 0 (some 7) 0).remove 1) 0 :=
    ⟨.inr ⟨1, 0, 5, by decide +kernel⟩, by decide +kernel⟩
  have hno : TimerEvent.deleted 0 ∉
      ((({ clock := 5 } : TimerContext).callLater 0 (some 7) 0).remove 1).tickAll.log := by
    decide +kernel
  exact hno (h _ hreach 0 hover)

end TimerContext

end Udap
