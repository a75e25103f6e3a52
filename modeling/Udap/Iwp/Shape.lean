import Udap.Lib.Logged
import Udap.Iwp.Intake

/-!
The shape of inbound messages, and what `reassemble` writes.

* `Shaped`: the fragments of an entry are the announced ones, with the announced sizes;
  `shaped_call` keeps it.
* `reassembleJob`: `reassemble` with a log of its writes; `reassembleJob_val` says that it is
  `reassemble`.
* `reassembly_in_bounds`: in every state that arbitrary frames lead to the entries are shaped, and
  putting one together writes inside the buffer that was allocated and fills it.
-/

namespace Udap.Iwp

open ByteMem TransitMessage Logged

/-! ### Writes -/

/-- A write of `len` bytes at `off`. -/
structure Write where
  off : ℕ
  len : ℕ

/-- The loop of `reassemble`, with its writes. -/
def copyFragsJob (msg : TransitMessage) :
    List ℕ → Bytes → ℕ → Logged Write (Except Fault (Option (Bytes × ℕ)))
  | [], buffer, ptr => return .ok (some (buffer, ptr))
  | idx :: rest, buffer, ptr =>
      match statusTest msg.status idx with
      | .error e => return .error e
      | .ok false => return .ok none
      | .ok true => do
          emit ⟨ptr, msg.msginfo.fragsize⟩
          copyFragsJob msg rest
            (memcpy buffer ptr (slice ((msg.frags.lookup idx).getD []) 0 msg.msginfo.fragsize))
            (ptr + msg.msginfo.fragsize)

/-- `reassemble`, with its writes. -/
def reassembleJob (msg : TransitMessage) : Logged Write (Except Fault (Option Bytes)) := do
  let buffer := List.replicate msg.msginfo.totalsize 0
  match ← copyFragsJob msg (List.range msg.msginfo.numfrags) buffer 0 with
  | .error e => return .error e
  | .ok none => return .ok none
  | .ok (some (buffer, ptr)) => do
      emit ⟨ptr, msg.lastfrag.length⟩
      return .ok (some (memcpy buffer ptr msg.lastfrag))

lemma copyFragsJob_val (msg : TransitMessage) (l : List ℕ) (buffer : Bytes) (ptr : ℕ) :
    (copyFragsJob msg l buffer ptr).val = copyFrags msg l buffer ptr := by
  induction l generalizing buffer ptr with
  | nil => rfl
  | cons idx l ih =>
      rw [copyFragsJob, copyFrags]
      cases statusTest msg.status idx with
      | error e => rfl
      | ok b =>
          cases b with
          | false => rfl
          | true => exact ih _ _

lemma reassembleJob_val (msg : TransitMessage) : (reassembleJob msg).val = msg.reassemble := by
  rw [reassembleJob, reassemble, val_bind, copyFragsJob_val]
  cases copyFrags msg (List.range msg.msginfo.numfrags)
      (List.replicate msg.msginfo.totalsize 0) 0 with
  | error e => rfl
  | ok r =>
      cases r with
      | none => rfl
      | some r => rfl

/-- The writes of `n` full fragments. -/
def fragWrites (size ptr n : ℕ) : List Write := (List.range n).map fun k => ⟨ptr + size * k, size⟩

/-- The loop writes one fragment behind the other, up to the first one that is missing. -/
lemma copyFragsJob_log (msg : TransitMessage) (l : List ℕ) (buffer : Bytes) (ptr : ℕ) :
    (copyFragsJob msg l buffer ptr).log <+: fragWrites msg.msginfo.fragsize ptr l.length ∧
      ∀ r, (copyFragsJob msg l buffer ptr).val = .ok (some r) →
        (copyFragsJob msg l buffer ptr).log = fragWrites msg.msginfo.fragsize ptr l.length ∧
          r.2 = ptr + msg.msginfo.fragsize * l.length := by
  induction l generalizing buffer ptr with
  | nil =>
      refine ⟨List.nil_prefix, fun r hr => ⟨rfl, ?_⟩⟩
      obtain rfl := Option.some.inj (Except.ok.inj hr)
      simp
  | cons idx l ih =>
      have hcons : fragWrites msg.msginfo.fragsize ptr (idx :: l).length =
          ⟨ptr, msg.msginfo.fragsize⟩ :: fragWrites msg.msginfo.fragsize
            (ptr + msg.msginfo.fragsize) l.length := by
        rw [fragWrites, fragWrites, List.length_cons, List.range_succ_eq_map, List.map_cons,
          List.map_map]
        refine congrArg _ (List.map_congr_left fun k _ => ?_)
        simp only [Function.comp, Nat.mul_succ]
        congr 1
        omega
      rw [copyFragsJob, hcons]
      cases statusTest msg.status idx with
      | error e => exact ⟨List.nil_prefix, nofun⟩
      | ok b =>
          cases b with
          | false => exact ⟨List.nil_prefix, nofun⟩
          | true =>
              obtain ⟨hpre, hdone⟩ := ih (memcpy buffer ptr
                (slice ((msg.frags.lookup idx).getD []) 0 msg.msginfo.fragsize))
                (ptr + msg.msginfo.fragsize)
              refine ⟨List.cons_prefix_cons.mpr ⟨rfl, hpre⟩, fun r hr => ?_⟩
              obtain ⟨hlog, hptr⟩ := hdone r hr
              refine ⟨congrArg _ hlog, ?_⟩
              rw [hptr, List.length_cons, Nat.mul_succ]
              omega

namespace Session

/-! ### The shape of an entry -/

/-- The fragments of an entry are the announced ones, with the announced sizes. -/
structure Shaped (t : TransitMessage) : Prop where
  keys : Allocated t
  fragsize : ∀ i b, t.frags.lookup i = some b → b.length = t.msginfo.fragsize
  lastfrag : t.lastfrag.length = t.msginfo.lastfrag

lemma shaped_xmitEntry (buf : Bytes) : Shaped (xmitEntry buf) where
  keys := allocated_xmitEntry buf
  fragsize i b hb := by
    have hi : i < (Xmit.ofFrame buf).numfrags :=
      (allocated_xmitEntry buf i).mp (AList.lookup_isSome.mp (by rw [hb]; rfl))
    have hb' := hb.symm.trans (lookup_foldl_insert _ hi)
    rw [Option.some.inj hb', List.length_replicate]
    rfl
  lastfrag := slice_length _ _ _

lemma Shaped.withFrag {t : TransitMessage} (h : Shaped t) {buf : Bytes}
    (hno : fragnoOf buf < t.msginfo.numfrags) : Shaped (withFrag buf t) where
  keys := h.keys.withFrag buf hno
  fragsize i b hb := by
    by_cases hi : i = fragnoOf buf
    · subst hi
      -- the fragment is written over in place
      have hmem := AList.lookup_isSome.mpr ((h.keys _).mpr hno)
      obtain ⟨old, hold⟩ := Option.isSome_iff_exists.mp hmem
      have hlen := h.fragsize _ old hold
      have hnew := hb.symm.trans (AList.lookup_insert _)
      rw [hold, Option.getD_some] at hnew
      rw [Option.some.inj hnew, memcpy_length]
      · exact hlen
      · rw [slice_length, Nat.zero_add, hlen]
    · exact h.fragsize i b ((AList.lookup_insert_ne hi).symm.trans hb)
  lastfrag := h.lastfrag

section Runs

variable {σ : Type} {env : LinkEnv σ} {s s' : Session σ} {c : Call σ}

/-- Every entry of `rx` has its shape. -/
def AllShaped (s : Session σ) : Prop := ∀ id t, s.frame.rx.lookup id = some t → Shaped t

/-- A call keeps the shape of the entries. -/
lemma shaped_call (hsized : Sized s) (hs : AllShaped s) (h : s.call env c = .ok s') :
    AllShaped s' := by
  intro id t ht
  rcases call_rx hsized h with ⟨hrx, -⟩ | ⟨now, buf, sz, id', e, -, htouch, hset⟩
  · rw [hrx] at ht
    exact hs id t ht
  · rcases hset.lookup ht with ⟨-, rfl⟩ | ht
    · rcases htouch with ⟨-, -, rfl⟩ | ⟨msg, hf, -, -, rfl⟩
      · exact shaped_xmitEntry buf
      · exact (hs _ _ hf.entry).withFrag hf.fragno
    · exact hs id t ht

lemma shaped_of_reachable {C : Session σ → Call σ → Prop} (h : ReachableBy env C s) :
    AllShaped s := by
  have hboth : Sized s ∧ AllShaped s := by
    refine h.rule (P := fun s => Sized s ∧ AllShaped s) (fun s hrx htx => ?_)
      fun s c s' _ hcall hs => ⟨sized_call hs.1 hcall, shaped_call hs.1 hs.2 hcall⟩
    have hstart : ReachableBy env C s := ⟨s, hrx, htx, .refl⟩
    refine ⟨sized_of_reachable hstart, fun id t ht => ?_⟩
    rw [hrx] at ht
    cases ht
  exact hboth.2

end Runs

/-! ### What `reassemble` writes -/

section Writes

variable {t : TransitMessage}

/-- The writes of all fragments and the last one. -/
def allWrites (t : TransitMessage) : List Write :=
  fragWrites t.msginfo.fragsize 0 t.msginfo.numfrags ++
    [⟨t.msginfo.fragsize * t.msginfo.numfrags, t.lastfrag.length⟩]

lemma reassembleJob_log (t : TransitMessage) : (reassembleJob t).log <+: allWrites t ∧
    ∀ m, t.reassemble = .ok (some m) → (reassembleJob t).log = allWrites t := by
  obtain ⟨hpre, hdone⟩ := copyFragsJob_log t (List.range t.msginfo.numfrags)
    (List.replicate t.msginfo.totalsize 0) 0
  rw [List.length_range] at hpre hdone
  simp only [Nat.zero_add] at hdone
  have hval := reassembleJob_val t
  rw [← hval, reassembleJob]
  revert hpre hdone
  generalize copyFragsJob t (List.range t.msginfo.numfrags)
    (List.replicate t.msginfo.totalsize 0) 0 = job
  obtain ⟨r, log⟩ := job
  intro hpre hdone
  have hstart : log ++ [] <+: allWrites t := by
    rw [List.append_nil]
    exact hpre.trans (List.prefix_append _ _)
  cases r with
  | error e => exact ⟨hstart, nofun⟩
  | ok r =>
      cases r with
      | none => exact ⟨hstart, nofun⟩
      | some r =>
          obtain ⟨hlog, hptr⟩ := hdone r rfl
          have hall : log ++ [⟨r.2, t.lastfrag.length⟩] = allWrites t := by
            rw [allWrites, hptr]
            exact congrArg (· ++ _) hlog
          exact ⟨hall ▸ List.prefix_rfl, fun m _ => hall⟩

/-- The writes stay inside the buffer that was allocated. -/
lemma allWrites_bounded (h : Shaped t) :
    ∀ w ∈ allWrites t, w.off + w.len ≤ t.msginfo.totalsize := by
  intro w hw
  rw [Xmit.totalsize]
  rcases List.mem_append.mp hw with hw | hw
  · obtain ⟨k, hk, rfl⟩ := List.mem_map.mp hw
    have hle : t.msginfo.fragsize * (k + 1) ≤ t.msginfo.fragsize * t.msginfo.numfrags :=
      Nat.mul_le_mul_left _ (List.mem_range.mp hk)
    rw [Nat.mul_succ] at hle
    dsimp only
    omega
  · rw [List.mem_singleton.mp hw, h.lastfrag]

/-- They fill it. -/
lemma allWrites_cover (h : Shaped t) :
    ∀ i < t.msginfo.totalsize, ∃ w ∈ allWrites t, w.off ≤ i ∧ i < w.off + w.len := by
  intro i hi
  rw [Xmit.totalsize] at hi
  by_cases hfull : i < t.msginfo.fragsize * t.msginfo.numfrags
  · have hpos : 0 < t.msginfo.fragsize := Nat.pos_of_mul_pos_right (Nat.zero_lt_of_lt hfull)
    have hk : i / t.msginfo.fragsize < t.msginfo.numfrags := Nat.div_lt_of_lt_mul hfull
    have hdiv := Nat.div_add_mod i t.msginfo.fragsize
    have hmod := Nat.mod_lt i hpos
    refine ⟨_, List.mem_append_left _ (List.mem_map.mpr ⟨_, List.mem_range.mpr hk, rfl⟩), ?_, ?_⟩
    · dsimp only
      omega
    · dsimp only
      omega
  · refine ⟨_, List.mem_append_right _ (List.mem_singleton_self _), ?_, ?_⟩
    · exact not_lt.mp hfull
    · dsimp only
      rw [h.lastfrag]
      exact hi

end Writes

/-- **Inbound messages keep their shape.** In every state that a session without messages gets to
under arbitrary frames, every entry of `rx` has exactly the announced fragments with the announced
sizes, and `reassemble` of it writes only inside the bytes it has allocated, and all of them when
it succeeds. -/
theorem reassembly_in_bounds {σ : Type} (env : LinkEnv σ) (s : Session σ)
    (h : ReachableBy env (fun _ _ => True) s) (id : UInt64) (t : TransitMessage)
    (ht : s.frame.rx.lookup id = some t) :
    Shaped t ∧ (reassembleJob t).val = t.reassemble ∧
      (∀ w ∈ (reassembleJob t).log, w.off + w.len ≤ t.msginfo.totalsize) ∧
      ∀ m, t.reassemble = .ok (some m) →
        ∀ i < t.msginfo.totalsize, ∃ w ∈ (reassembleJob t).log, w.off ≤ i ∧ i < w.off + w.len := by
  have hshape := shaped_of_reachable h id t ht
  obtain ⟨hpre, hdone⟩ := reassembleJob_log t
  refine ⟨hshape, reassembleJob_val t, fun w hw => ?_, fun m hm => ?_⟩
  · exact allWrites_bounded hshape w (hpre.subset hw)
  · rw [hdone m hm]
    exact allWrites_cover hshape

/-- The entry that the first announcement of a run makes. -/
theorem reassembly_in_bounds_manyXmit :
    let t := xmitEntry manyXmit
    Shaped t ∧ (reassembleJob t).val = t.reassemble ∧
      (∀ w ∈ (reassembleJob t).log, w.off + w.len ≤ t.msginfo.totalsize) ∧
      ∀ m, t.reassemble = .ok (some m) →
        ∀ i < t.msginfo.totalsize, ∃ w ∈ (reassembleJob t).log, w.off ≤ i ∧ i < w.off + w.len := by
  intro t
  let env := LinkEnv.discarding (List.Vector.replicate 32 0)
  have hfor : XmitFor quietSession manyXmit manyXmit.length :=
    ⟨by decide, by decide +kernel, by decide +kernel, by decide +kernel, by simp [quietSession]⟩
  have hproc : quietSession.process env 0 manyXmit manyXmit.length =
      .ok ((quietSession.stored 1 t).acking 1 0, true) := by
    have hnum : (Xmit.ofFrame manyXmit).numfrags = 33 := by decide +kernel
    have hid : (Xmit.ofFrame manyXmit).msgid = 1 := by decide +kernel
    have h : quietSession.gotXmit env 0 manyXmit (usub manyXmit.length 6) = _ :=
      gotXmit_xmitFor hfor
    rw [hnum, hid] at h
    exact h
  have hcall : quietSession.call env (.frame 0 manyXmit manyXmit.length) = .ok
      { (quietSession.stored 1 t).acking 1 0 with
        frame := ((quietSession.stored 1 t).acking 1 0).frame.alive 0 }.pump := by
    rw [call_frame, hproc]
    rfl
  exact reassembly_in_bounds env _ ⟨quietSession, rfl, rfl, .single ⟨_, trivial, hcall⟩⟩ 1 t
    (AList.lookup_insert _)

end Session

end Udap.Iwp
